import InternTradingGame.Exchange.BatchInstruments
import InternTradingGame.Exchange.MarketMoves
import InternTradingGame.Library.Plans
import InternTradingGame.OrderBook.Desk
import Mathlib.Data.Prod.Lex
import Mathlib.Data.Set.Insert
import Mathlib.Order.CompletePartialOrder

/-!
# What a batch is about to do

A batch pairs the collected orders of an instrument and adds what is left to
its book.  Seen from the desk this is arithmetic: `batchPlan` lists the
trades and the insertions to come, and the batch carries out this plan as
long as its trades are trades of whole contracts.
-/

namespace InternTradingGame

open Effects

/-! ## Fair markets -/

/-- No order is overfilled, and every resting order has something left. -/
structure MarketFair (market : Market) : Prop where
  shape : MarketShape market
  solvent : market.heap.Solvent
  unspent : ∀ order, market.Rests order → 0 < market.heap.remaining order

/-- The trades on record, then who rests: every effect adds to these. -/
def Market.progress (market : Market) : ℕ ×ₗ Set Order :=
  toLex (market.heap.trades.length, { order | market.Rests order })

/-- The trades of a plan have been made, and no others. -/
def Market.Made (plan : List DeskEffect) (before after : Market) : Prop :=
  ∃ made, after.heap.trades = before.heap.trades ++ made ∧
    made.map Trade.quantity = plan.flatMap DeskEffect.amounts

theorem Market.Made.refl {market : Market} : Market.Made [] market market :=
  ⟨[], (List.append_nil _).symm, rfl⟩

/-- A plan without trades leaves the trades on record as they are. -/
theorem Market.Made.trades_eq {plan : List DeskEffect}
    {before after : Market} (made : Market.Made plan before after)
    (none : plan.flatMap DeskEffect.amounts = []) :
    after.heap.trades = before.heap.trades := by
  rcases made with ⟨trades, recorded, amounts⟩
  rw [none, List.map_eq_nil_iff] at amounts
  rw [recorded, amounts, List.append_nil]

theorem Market.Made.append {early late : List DeskEffect}
    {before middle after : Market} (first : Market.Made early before middle)
    (second : Market.Made late middle after) :
    Market.Made (early ++ late) before after := by
  rcases first with ⟨made, recorded, amounts⟩
  rcases second with ⟨more, moreRecorded, moreAmounts⟩
  refine ⟨made ++ more, ?_, ?_⟩
  · rw [moreRecorded, recorded, List.append_assoc]
  · rw [List.map_append, List.flatMap_append, amounts, moreAmounts]

/-- The trades which have been made were possible. -/
theorem possible_trades (made : List Trade) :
    ∀ effect ∈ (made.map Trade.quantity).map DeskEffect.trade,
      effect.Possible := by
  intro effect member
  rcases List.mem_map.mp member with ⟨quantity, inTrades, rfl⟩
  rcases List.mem_map.mp inTrades with ⟨trade, _, rfl⟩
  exact trade.quantity_whole

section Fair

variable {market after : Market} {order : Order} {book : OrderBook}

theorem Market.progress_lt_of_trades {made : List Trade}
    (recorded : after.heap.trades = market.heap.trades ++ made)
    (some : made ≠ []) : market.progress < after.progress := by
  rw [Market.progress, Market.progress, Prod.Lex.toLex_lt_toLex,
    recorded, List.length_append]
  exact Or.inl (Nat.lt_add_of_pos_right (List.length_pos_iff.mpr some))

theorem Market.progress_lt_of_rests
    (recorded : after.heap.trades = market.heap.trades)
    (kept : ∀ other, market.Rests other → after.Rests other)
    (away : ¬ market.Rests order) (rests : after.Rests order) :
    market.progress < after.progress := by
  rw [Market.progress, Market.progress, Prod.Lex.toLex_lt_toLex, recorded]
  refine Or.inr ⟨rfl, kept, ?_⟩
  intro subset
  exact away (subset rests)

theorem Waiting.positive (waits : Waiting market order)
    (solvent : market.heap.Solvent) : 0 < market.heap.remaining order :=
  lt_of_le_of_ne (solvent order waits.taken) (Ne.symm waits.unfilled)

/-- An order which waits can be added to the book of its instrument. -/
theorem Waiting.addable (waits : Waiting market order)
    (shape : MarketShape market)
    (found : market.orderBooks.get? order.instrumentId = some book) :
    Addable order ⟨market.heap, book⟩ where
  instrument := (shape.named _ book found).symm
  absent := by
    intro present
    rcases ((shape.books _ book found).ids _).mp present with
      ⟨other, member, equal⟩
    have rests : market.Rests other := ⟨_, book, found, member⟩
    have same := shape.eq_of_orderId_eq (shape.registered other rests)
      waits.taken equal
    exact waits.away (same ▸ rests)

end Fair

/-! ## An order comes to its book -/

section AddOrder

variable {market after : Market} {order : Order} {book : OrderBook}
  {matched : BookState} {trades : List Trade}

/-- Whoever rested still rests when a book only gets more orders. -/
theorem Market.Rests.withBook {other : Order} {instrumentId : String}
    {part : BookState}
    (found : market.orderBooks.get? instrumentId = some book)
    (more : book.resting ⊆ part.book.resting)
    (rests : market.Rests other) :
    (market.withBook instrumentId part).Rests other := by
  rcases rests with ⟨otherId, otherBook, otherFound, member⟩
  by_cases same : otherId = instrumentId
  · subst same
    rcases Option.some.inj (otherFound.symm.trans found) with rfl
    exact ⟨_, part.book, Market.withBook_get?_self .., more member⟩
  · refine ⟨otherId, otherBook, ?_, member⟩
    rw [Market.withBook_get?_ne _ _ same]
    exact otherFound

/-- What an order is about to do, once it has been matched. -/
theorem Follows.effects_eq {start : BookState}
    (follows : Follows order start trades matched)
    (done : MatchingDone order matched) (shape : BookShape matched.book) :
    start.desk.effects (start.quote order) =
      (trades.map Trade.quantity).map .trade ++
        if order.IsLimitOrder ∧ ¬ order.IsFilled matched.heap then
          [.rest]
        else
          [] := by
  rw [Desk.effects, follows.met_eq done shape]
  simp only [follows.leaves_iff done shape]

/-- The insertion of what is left shows in the market. -/
theorem rest_done (shape : MarketShape market)
    (found : market.orderBooks.get? order.instrumentId = some book)
    (away : ¬ market.Rests order) :
    Done id Market.progress
      (if order.IsLimitOrder ∧ ¬ order.IsFilled market.heap then
        [DeskEffect.rest]
      else
        [])
      market
      (market.withBook order.instrumentId
        (BookState.rest ⟨market.heap, book⟩ order)) := by
  by_cases leaves : order.IsLimitOrder ∧ ¬ order.IsFilled market.heap
  · rcases order.isLimitOrder_iff.mp leaves.1 with ⟨limit, priced⟩
    have inserted : BookState.rest ⟨market.heap, book⟩ order =
        BookState.inserted ⟨market.heap, book⟩ order limit := by
      simp [BookState.rest, priced, leaves.2]
    have joins := @inserted_inserted order ⟨market.heap, book⟩ limit
      (shape.books _ book found) (shape.named _ book found).symm priced
    rw [if_pos leaves, inserted]
    show market.progress < Market.progress _
    refine Market.progress_lt_of_rests rfl ?_ away ?_
    · exact fun other rests => rests.withBook found fun candidate member =>
        joins.mem_changed_iff.mpr (Or.inr member)
    · exact ⟨_, _, Market.withBook_get?_self ..,
        joins.mem_changed_iff.mpr (Or.inl rfl)⟩
  · have stays : BookState.rest ⟨market.heap, book⟩ order =
        ⟨market.heap, book⟩ := by
      rcases @rest_cases order ⟨market.heap, book⟩ with
        unchanged | ⟨limit, priced, unfilled, _⟩
      · exact unchanged
      · exact absurd
          ⟨order.isLimitOrder_iff.mpr ⟨limit, priced⟩, unfilled⟩ leaves
    rw [if_neg leaves, stays]
    exact Market.withBook_self found

/-- The book of an order shows what the desk shows after the order. -/
structure Arrived (market : Market) (order : Order) (book : OrderBook)
    (trades : List Trade) (after : Market) : Prop where
  fair : MarketFair after
  made : Market.Made
    ((BookState.desk ⟨market.heap, book⟩).effects
      (BookState.quote ⟨market.heap, book⟩ order)) market after
  trading : Trading (AddParties market order) market trades after
  desk : ∃ reached,
    after.orderBooks.get? order.instrumentId = some reached ∧
      BookState.desk ⟨after.heap, reached⟩ =
        (BookState.desk ⟨market.heap, book⟩).add
          (BookState.quote ⟨market.heap, book⟩ order)

/-- The book in which an order has been matched as on the desk. -/
structure MatchedAsOnDesk (market : Market) (order : Order)
    (book : OrderBook) (trades : List Trade) (matched : BookState) :
    Prop where
  changes : Matched order ⟨market.heap, book⟩ trades matched
  follows : Follows order ⟨market.heap, book⟩ trades matched
  shape : BookShape matched.book
  absent : order.orderId ∉ matched.book.orderIds
  done : MatchingDone order matched

/-- The trades of an order at its book, until one is not possible. -/
theorem onBook_addOrder_follows (fair : MarketFair market)
    (found : market.orderBooks.get? order.instrumentId = some book)
    (waits : Waiting market order) :
    Ends
      (Market.onBook order.instrumentId (OrderBook.addOrder order)) market
      (fun trades after =>
        ∃ matched,
          after =
              market.withBook order.instrumentId (matched.rest order) ∧
            MatchedAsOnDesk market order book trades matched)
      (fun _ after =>
        ∃ trades amount later,
          ((BookState.desk ⟨market.heap, book⟩).met
              (BookState.quote ⟨market.heap, book⟩ order)).amounts =
                trades.map Trade.quantity ++ amount :: later ∧
            ¬ Whole amount ∧
            after.heap.trades = market.heap.trades ++ trades ∧
            (trades = [] → after = market)) := by
  have follows := @addOrder_follows order ⟨market.heap, book⟩
    (fair.shape.books _ book found)
    (fun other member => fair.unspent other ⟨_, book, found, member⟩)
    (waits.positive fair.solvent).le (waits.addable fair.shape found)
  apply Market.onBook_ends found
  refine follows.mono ?_ ?_
  · rintro trades part
      ⟨matched, rfl, changes, follows, shape, absent, done⟩
    exact ⟨matched, rfl, changes, follows, shape, absent, done⟩
  · rintro exception part
      ⟨trades, amount, later, amounts, fraction, changes, idle⟩
    refine ⟨trades, amount, later, amounts, fraction, changes.recorded,
      ?_⟩
    intro none
    rw [idle none]
    exact Market.withBook_self found

/-- The order makes the trades it makes at the desk. -/
theorem MatchedAsOnDesk.made
    (onDesk : MatchedAsOnDesk market order book trades matched) :
    Market.Made
      ((BookState.desk ⟨market.heap, book⟩).effects
        (BookState.quote ⟨market.heap, book⟩ order))
      market
      (market.withBook order.instrumentId (matched.rest order)) := by
  refine ⟨trades,
    (congrArg Heap.trades rest_heap).trans onDesk.changes.recorded, ?_⟩
  rw [onDesk.follows.effects_eq onDesk.done onDesk.shape,
    List.flatMap_append, DeskEffect.amounts_trades]
  split_ifs
  · exact (List.append_nil _).symm
  · exact (List.append_nil _).symm

/-- The market is fair again when the order has been matched. -/
theorem MatchedAsOnDesk.arrived
    (onDesk : MatchedAsOnDesk market order book trades matched)
    (fair : MarketFair market)
    (found : market.orderBooks.get? order.instrumentId = some book)
    (waits : Waiting market order)
    (moves : MarketMoves market
      (market.withBook order.instrumentId (matched.rest order))) :
    Arrived market order book trades
      (market.withBook order.instrumentId (matched.rest order)) := by
  have named := fair.shape.named _ book found
  have instrument : order.instrumentId = matched.book.instrumentId :=
    named.symm.trans onDesk.changes.instrument.symm
  have both := matched_market fair.shape found waits.taken onDesk.changes
    rest_heap
    (rest_shape onDesk.shape onDesk.absent onDesk.done instrument)
    rest_instrumentId
    (fun candidate member =>
      mem_rest_resting onDesk.shape instrument member)
  have known : ∀ candidate, AddParties market order candidate →
      candidate ∈ market.heap.orders := by
    rintro candidate (rfl | rests)
    · exact waits.taken
    · exact fair.shape.registered candidate rests
  have inside : ∀ trade ∈ trades,
      trade.instrumentId = order.instrumentId := by
    intro trade member
    rcases onDesk.changes.parties trade member with ⟨_, _, _, _, _, tradeOf⟩
    exact tradeOf.instrument.trans named
  have solvent := (MarketMoves.keeps (fun reached => reached.heap.Solvent)
    (fun _ _ shape solvent move => solvent.move (move.heap shape))
    fair.shape fair.solvent moves).2
  refine ⟨⟨both.1, solvent, ?_⟩, onDesk.made, both.2,
    ⟨_, Market.withBook_get?_self ..,
      onDesk.follows.desk_rest onDesk.done onDesk.shape⟩⟩
  intro other rests
  rcases Market.rests_withBook rests with
    inPart | ⟨otherId, otherBook, different, otherFound, member⟩
  · exact onDesk.follows.unspent_rest onDesk.shape instrument other inPart
  · have old : market.Rests other :=
      ⟨otherId, otherBook, otherFound, member⟩
    rw [both.2.remaining_elsewhere fair.shape known inside
      (fair.shape.registered other old)]
    · exact fair.unspent other old
    · rw [fair.shape.instrument_of_rests otherFound member]
      exact different

/-- Everything which happens at the desk shows in the market. -/
theorem MatchedAsOnDesk.done_
    (onDesk : MatchedAsOnDesk market order book trades matched)
    (fair : MarketFair market)
    (found : market.orderBooks.get? order.instrumentId = some book)
    (waits : Waiting market order) :
    Done id Market.progress
      ((BookState.desk ⟨market.heap, book⟩).effects
        (BookState.quote ⟨market.heap, book⟩ order))
      market
      (market.withBook order.instrumentId (matched.rest order)) := by
  rw [onDesk.follows.effects_eq onDesk.done onDesk.shape]
  cases trades with
  | nil =>
      rcases onDesk.follows.recorded.idle rfl with rfl
      exact rest_done fair.shape found waits.away
  | cons trade rest =>
      show market.progress < Market.progress _
      apply Market.progress_lt_of_trades _ (List.cons_ne_nil trade rest)
      exact (congrArg Heap.trades rest_heap).trans onDesk.changes.recorded

/-- Adding an order carries out what happens at the desk. -/
theorem onBook_addOrder_carriesOut (fair : MarketFair market)
    (found : market.orderBooks.get? order.instrumentId = some book)
    (waits : Waiting market order) :
    CarriesOut id Market.progress DeskEffect.Possible
      (Market.onBook order.instrumentId (OrderBook.addOrder order)) market
      ((BookState.desk ⟨market.heap, book⟩).effects
        (BookState.quote ⟨market.heap, book⟩ order))
      (Arrived market order book) := by
  refine ((onBook_addOrder_follows fair found waits).and
    (onBook_addOrder_moves fair.shape found waits.taken)).mono ?_ ?_
  · rintro trades after ⟨⟨matched, rfl, onDesk⟩, moves⟩
    refine ⟨?_, onDesk.done_ fair found waits,
      onDesk.arrived fair found waits moves⟩
    rw [onDesk.follows.effects_eq onDesk.done onDesk.shape]
    intro effect member
    rcases List.mem_append.mp member with traded | rests
    · exact possible_trades trades effect traded
    · split_ifs at rests
      · rw [List.mem_singleton.mp rests]
        trivial
      · cases rests
  · rintro exception after
      ⟨⟨trades, amount, later, amounts, fraction, recorded, idle⟩, _⟩
    have split : (BookState.desk ⟨market.heap, book⟩).effects
          (BookState.quote ⟨market.heap, book⟩ order) =
        (trades.map Trade.quantity).map .trade ++
          .trade amount :: (later.map .trade ++
            if (BookState.desk ⟨market.heap, book⟩).Leaves
                (BookState.quote ⟨market.heap, book⟩ order) then
              [.rest]
            else
              []) := by
      rw [Desk.effects, amounts, List.map_append, List.map_cons,
        List.append_assoc]
      rfl
    refine ⟨_, _, _, split, possible_trades trades, fraction, ?_⟩
    cases trades with
    | nil => exact idle rfl
    | cons trade rest =>
        exact Market.progress_lt_of_trades recorded
          (List.cons_ne_nil trade rest)

end AddOrder

/-! ## A batch on the desk -/

instance (buyOrder sellOrder : Order) :
    Decidable (Crosses buyOrder sellOrder) :=
  decidable_of_iff
    (∃ bid ∈ buyOrder.price, ∃ ask ∈ sellOrder.price, ask ≤ bid)
    ⟨fun ⟨bid, bidPriced, ask, askPriced, inside⟩ =>
      ⟨bid, ask, bidPriced, askPriced, inside⟩,
    fun ⟨bid, ask, bidPriced, askPriced, inside⟩ =>
      ⟨bid, bidPriced, ask, askPriced, inside⟩⟩

/-- What the orders of a list have left. -/
def Heap.quotes (heap : Heap) (orders : List Order) : List Quote :=
  orders.map fun order => (order, heap.remaining order)

theorem Heap.quotes_append (heap : Heap) (first second : List Order) :
    heap.quotes (first ++ second) =
      heap.quotes first ++ heap.quotes second :=
  List.map_append

theorem Heap.quotes_cons (heap : Heap) (order : Order)
    (orders : List Order) :
    heap.quotes (order :: orders) =
      (order, heap.remaining order) :: heap.quotes orders :=
  rfl

/-- A quote stays in front of its queue while something of it is left. -/
def keepQuote (quote : Quote) (traded : ℚ) (queue : List Quote) :
    List Quote :=
  if quote.2 = traded then
    queue
  else
    (quote.1, quote.2 - traded) :: queue

/-- What the pairs trade and what they leave. -/
structure PairedQuotes where
  amounts : List ℚ
  buys : List Quote
  sells : List Quote

/-- The same pairs after some earlier trades. -/
def PairedQuotes.after (paired : PairedQuotes) (earlier : List ℚ) :
    PairedQuotes :=
  { paired with amounts := earlier ++ paired.amounts }

theorem PairedQuotes.after_after (paired : PairedQuotes)
    (late early : List ℚ) :
    (paired.after late).after early = paired.after (early ++ late) := by
  simp [PairedQuotes.after]

/-- The pairing loop, seen from the desk. -/
def pairQuotes : ℕ → List Quote → List Quote → PairedQuotes
  | iterations + 1, buy :: buys, sell :: sells =>
      if Crosses buy.1 sell.1 then
        (pairQuotes iterations
          (keepQuote buy (min buy.2 sell.2) buys)
          (keepQuote sell (min buy.2 sell.2) sells)).after
            [min buy.2 sell.2]
      else
        ⟨[], buy :: buys, sell :: sells⟩
  | _, buys, sells => ⟨[], buys, sells⟩

/-- What happens when some orders come to the desk, one after another. -/
def Desk.queueEffects : Desk → List Quote → List DeskEffect
  | _, [] => []
  | desk, quote :: quotes =>
      desk.effects quote ++ (desk.add quote).queueEffects quotes

/-- What is about to happen to the collected orders of an instrument. -/
def instrumentPlan (draw : String → ℚ) (market : Market)
    (collected : String × List Order) : List DeskEffect :=
  match market.orderBooks.get? collected.1 with
  | none => []
  | some book =>
      let buyOrders :=
        BatchMatchingEngine.randomizeSamePriceOrders draw true
          (collected.2.filter fun order => order.side = .buy)
      let sellOrders :=
        BatchMatchingEngine.randomizeSamePriceOrders draw false
          (collected.2.filter fun order => order.side = .sell)
      let paired :=
        pairQuotes (buyOrders.length + sellOrders.length + 1)
          (market.heap.quotes buyOrders) (market.heap.quotes sellOrders)
      paired.amounts.map .trade ++
        (BookState.desk ⟨market.heap, book⟩).queueEffects
          (paired.buys ++ paired.sells)

/-- What is about to happen in a batch. -/
def batchPlan (draw : String → ℚ) (market : Market)
    (pending : PendingOrders) : List DeskEffect :=
  pending.entries.flatMap (instrumentPlan draw market)

/-! ## Fair batches -/

/-- The market is fair and the orders still to come wait for it. -/
structure BatchFair (left : List Order) (context : BatchContext) :
    Prop where
  fair : MarketFair context.market
  waiting : ∀ order ∈ left, Waiting context.market order
  distinct : left.Nodup

namespace BatchFair

variable {left kept : List Order} {context : BatchContext}

theorem subset (batch : BatchFair left context)
    (sublist : kept.Sublist left) : BatchFair kept context where
  fair := batch.fair
  waiting order member := batch.waiting order (sublist.subset member)
  distinct := batch.distinct.sublist sublist

theorem perm (batch : BatchFair left context)
    (same : left.Perm kept) : BatchFair kept context where
  fair := batch.fair
  waiting order member := batch.waiting order (same.mem_iff.mpr member)
  distinct := same.nodup_iff.mp batch.distinct

end BatchFair

/-! ## Pairs -/

section Pairs

variable {buyOrder sellOrder : Order} {buyOrders sellOrders : List Order}
  {rest : List Order} {context : BatchContext} {trade : Trade}

/-- What is left of a queue whose first order has traded. -/
theorem quotes_unlessFilled {before after : Heap} {order : Order}
    {orders : List Order} {traded : ℚ}
    (own : after.remaining order = before.remaining order - traded)
    (others : ∀ other ∈ orders,
      after.remaining other = before.remaining other) :
    after.quotes (unlessFilled order orders after) =
      keepQuote (order, before.remaining order) traded
        (before.quotes orders) := by
  have behind : after.quotes orders = before.quotes orders := by
    apply List.map_congr_left
    intro other member
    rw [others other member]
  unfold unlessFilled keepQuote
  by_cases completes : before.remaining order = traded
  · have filled : order.IsFilled after := by
      rw [Order.IsFilled, own, completes, sub_self]
    rw [if_pos filled, if_pos completes, behind]
  · have unfilled : ¬ order.IsFilled after := by
      rw [Order.IsFilled, own, sub_eq_zero]
      exact completes
    rw [if_neg unfilled, if_neg completes, ← own, ← behind]
    rfl

/-- A pair of waiting orders takes nothing from those which rest. -/
theorem settleTrade_remaining_rests {market : Market} {order : Order}
    (shape : MarketShape market) (buyWaits : Waiting market buyOrder)
    (sellWaits : Waiting market sellOrder) (rests : market.Rests order) :
    (BatchMatchingEngine.settleTrade trade buyOrder sellOrder
        market).heap.remaining order = market.heap.remaining order := by
  have taken := shape.registered order rests
  apply settleTrade_remaining_other
  · exact fun equal => buyWaits.away
      (shape.eq_of_orderId_eq taken buyWaits.taken equal ▸ rests)
  · exact fun equal => sellWaits.away
      (shape.eq_of_orderId_eq taken sellWaits.taken equal ▸ rests)

/-- A pair of waiting orders which trades leaves the market fair. -/
theorem MarketFair.settled {market : Market} {book : OrderBook}
    (fair : MarketFair market)
    (found : market.orderBooks.get? trade.instrumentId = some book)
    (buyWaits : Waiting market buyOrder)
    (sellWaits : Waiting market sellOrder)
    (between : TradeBetween trade buyOrder sellOrder)
    (different : buyOrder.orderId ≠ sellOrder.orderId)
    (quantity :
      trade.quantity =
        min (market.heap.remaining buyOrder)
          (market.heap.remaining sellOrder)) :
    MarketFair
      (BatchMatchingEngine.settleTrade trade buyOrder sellOrder
        market) := by
  have move := MarketMove.pair found buyWaits.taken sellWaits.taken
    between different quantity
  refine ⟨move.shape fair.shape,
    fair.solvent.move (move.heap fair.shape), ?_⟩
  intro order rests
  have old := settleTrade_rests found rests
  rw [settleTrade_remaining_rests fair.shape buyWaits sellWaits old]
  exact fair.unspent order old

/-- The desk of an instrument in a market. -/
def Market.Shows (market : Market) (instrumentId : String) (desk : Desk) :
    Prop :=
  ∃ book, market.orderBooks.get? instrumentId = some book ∧
    BookState.desk ⟨market.heap, book⟩ = desk

/-- The pairing loop has come so far, and the rest is still to come. -/
structure PairsFollow (instrumentId : String) (desk : Desk)
    (plan : PairedQuotes) (start : Market) (rest buys sells : List Order)
    (context : BatchContext) : Prop where
  batch : BatchFair (buys ++ (sells ++ rest)) context
  buying : Collected (fun _ => True) instrumentId .buy buys
  selling : Collected (fun _ => True) instrumentId .sell sells
  shows : context.market.Shows instrumentId desk
  paired : ∃ iterations made,
    buys.length + sells.length < iterations ∧
      plan =
        (pairQuotes iterations (context.market.heap.quotes buys)
          (context.market.heap.quotes sells)).after
            (made.map Trade.quantity) ∧
      context.market.heap.trades = start.heap.trades ++ made ∧
      (made = [] → context.market = start)

namespace PairsFollow

variable {instrumentId : String} {desk : Desk} {plan : PairedQuotes}
  {start : Market}

theorem buyWaits
    (follow : PairsFollow instrumentId desk plan start rest
      (buyOrder :: buyOrders) (sellOrder :: sellOrders) context) :
    Waiting context.market buyOrder :=
  follow.batch.waiting buyOrder (by simp)

theorem sellWaits
    (follow : PairsFollow instrumentId desk plan start rest
      (buyOrder :: buyOrders) (sellOrder :: sellOrders) context) :
    Waiting context.market sellOrder :=
  follow.batch.waiting sellOrder (by simp)

/-- A buy order and a sell order still to come have different ids. -/
theorem apart
    (follow : PairsFollow instrumentId desk plan start rest
      (buyOrder :: buyOrders) (sellOrder :: sellOrders) context) :
    buyOrder.orderId ≠ sellOrder.orderId := by
  intro equal
  have same := follow.batch.fair.shape.eq_of_orderId_eq
    follow.buyWaits.taken follow.sellWaits.taken equal
  have buySide := (follow.buying buyOrder List.mem_cons_self).2.1
  rw [same, (follow.selling sellOrder List.mem_cons_self).2.1] at buySide
  cases buySide

/-- Only a pair of a part of a contract does not make a trade. -/
theorem fraction {exception : PyError}
    (follow : PairsFollow instrumentId desk plan start rest
      (buyOrder :: buyOrders) (sellOrder :: sellOrders) context)
    (crosses : Crosses buyOrder sellOrder)
    (raised : pairTrade buyOrder sellOrder context.market =
      .error exception) :
    ¬ Whole (min (context.market.heap.remaining buyOrder)
      (context.market.heap.remaining sellOrder)) := by
  intro whole
  rcases crosses with ⟨bid, ask, _, askPriced, _⟩
  have solvent := follow.batch.fair.solvent
  have created : ∃ trade,
      pairTrade buyOrder sellOrder context.market = .ok trade := by
    simp only [pairTrade, BatchMatchingEngine.createTrade, askPriced]
    exact Trade.exists_new (sellOrder.price_positive ask askPriced)
      (lt_min (follow.buyWaits.positive solvent)
        (follow.sellWaits.positive solvent)) whole
  rcases created with ⟨trade, created⟩
  rw [created] at raised
  cases raised

/-- The plan begins with the pair which comes next. -/
theorem plan_eq
    (follow : PairsFollow instrumentId desk plan start rest
      (buyOrder :: buyOrders) (sellOrder :: sellOrders) context)
    (crosses : Crosses buyOrder sellOrder) :
    ∃ iterations made,
      buyOrders.length + sellOrders.length + 1 < iterations ∧
        plan =
          (pairQuotes iterations
            (keepQuote
              (buyOrder, context.market.heap.remaining buyOrder)
              (min (context.market.heap.remaining buyOrder)
                (context.market.heap.remaining sellOrder))
              (context.market.heap.quotes buyOrders))
            (keepQuote
              (sellOrder, context.market.heap.remaining sellOrder)
              (min (context.market.heap.remaining buyOrder)
                (context.market.heap.remaining sellOrder))
              (context.market.heap.quotes sellOrders))).after
            (made.map Trade.quantity ++
              [min (context.market.heap.remaining buyOrder)
                (context.market.heap.remaining sellOrder)]) ∧
        context.market.heap.trades = start.heap.trades ++ made ∧
        (made = [] → context.market = start) := by
  rcases follow.paired with
    ⟨iterations, made, enough, planned, recorded, idle⟩
  cases iterations with
  | zero => exact absurd enough (Nat.not_lt_zero _)
  | succ iterations =>
      refine ⟨iterations, made, ?_, ?_, recorded, idle⟩
      · simp only [List.length_cons] at enough
        omega
      · rw [planned, Heap.quotes_cons, Heap.quotes_cons, pairQuotes,
          if_pos crosses, PairedQuotes.after_after]

/-- The trade of the pair is one between its two orders. -/
theorem between
    (follow : PairsFollow instrumentId desk plan start rest
      (buyOrder :: buyOrders) (sellOrder :: sellOrders) context)
    (crosses : Crosses buyOrder sellOrder)
    (created :
      pairTrade buyOrder sellOrder context.market = .ok trade) :
    TradeBetween trade buyOrder sellOrder ∧
      trade.instrumentId = instrumentId := by
  have buy := (follow.buying buyOrder List.mem_cons_self).2
  have sell := (follow.selling sellOrder List.mem_cons_self).2
  rcases crosses with ⟨bid, ask, bidPriced, askPriced, inside⟩
  have between := (createTrade_between buy.1 sell.1
    (sell.2.trans buy.2.symm) bidPriced askPriced inside created).1
  exact ⟨between, between.buyInstrument.trans buy.2⟩

/-- The orders behind the pair wait, and are none of the two. -/
theorem behind
    (follow : PairsFollow instrumentId desk plan start rest
      (buyOrder :: buyOrders) (sellOrder :: sellOrders) context)
    {other : Order}
    (member : other ∈ buyOrders ++ (sellOrders ++ rest)) :
    Waiting context.market other ∧
      other ≠ buyOrder ∧ other ≠ sellOrder := by
  have same : (buyOrder :: buyOrders ++
        (sellOrder :: sellOrders ++ rest)).Perm
      (buyOrder :: sellOrder :: (buyOrders ++ (sellOrders ++ rest))) :=
    List.Perm.cons _ List.perm_middle
  rcases List.nodup_cons.mp (same.nodup_iff.mp follow.batch.distinct) with
    ⟨notBuy, distinct⟩
  refine ⟨?_, ?_, ?_⟩
  · apply follow.batch.waiting
    exact same.mem_iff.mpr
      (List.mem_cons_of_mem _ (List.mem_cons_of_mem _ member))
  · rintro rfl
    exact notBuy (List.mem_cons_of_mem _ member)
  · rintro rfl
    exact (List.nodup_cons.mp distinct).1 member

/-- The pair takes nothing from the orders behind it. -/
theorem unchanged
    (follow : PairsFollow instrumentId desk plan start rest
      (buyOrder :: buyOrders) (sellOrder :: sellOrders) context)
    (trade : Trade) {other : Order}
    (member : other ∈ buyOrders ++ (sellOrders ++ rest)) :
    (BatchMatchingEngine.settleTrade trade buyOrder sellOrder
        context.market).heap.remaining other =
      context.market.heap.remaining other := by
  rcases follow.behind member with ⟨waits, notBuy, notSell⟩
  have shape := follow.batch.fair.shape
  apply settleTrade_remaining_other
  · exact fun equal => notBuy
      (shape.eq_of_orderId_eq waits.taken follow.buyWaits.taken equal)
  · exact fun equal => notSell
      (shape.eq_of_orderId_eq waits.taken follow.sellWaits.taken equal)

/-- The pair leaves the desk of its instrument as it is. -/
theorem shows_settled
    (follow : PairsFollow instrumentId desk plan start rest
      (buyOrder :: buyOrders) (sellOrder :: sellOrders) context)
    (atInstrument : trade.instrumentId = instrumentId) :
    (BatchMatchingEngine.recordTrade trade buyOrder sellOrder
      context).market.Shows instrumentId desk := by
  rcases follow.shows with ⟨book, found, shown⟩
  rw [← atInstrument] at found
  refine ⟨book.appendTrade trade, ?_, ?_⟩
  · rw [recordTrade_market, settleTrade_eq found, ← atInstrument]
    exact Market.withBook_get?_self ..
  · rw [← shown]
    funext side
    apply BookState.desk_congr
    · exact OrderBook.restingOn_congr (OrderBook.levels_appendTrade ..)
    · intro other member
      exact settleTrade_remaining_rests follow.batch.fair.shape
        follow.buyWaits follow.sellWaits
        ⟨_, book, found, OrderBook.mem_resting_of_mem member⟩

/-- One pair has traded as planned. -/
theorem step
    (follow : PairsFollow instrumentId desk plan start rest
      (buyOrder :: buyOrders) (sellOrder :: sellOrders) context)
    (crosses : Crosses buyOrder sellOrder)
    (created :
      pairTrade buyOrder sellOrder context.market = .ok trade) :
    PairsFollow instrumentId desk plan start rest
      (unlessFilled buyOrder buyOrders
        (BatchMatchingEngine.settleTrade trade buyOrder sellOrder
          context.market).heap)
      (unlessFilled sellOrder sellOrders
        (BatchMatchingEngine.settleTrade trade buyOrder sellOrder
          context.market).heap)
      (BatchMatchingEngine.recordTrade trade buyOrder sellOrder
        context) := by
  have fair := follow.batch.fair
  have different := follow.apart
  have quantity := pairTrade_quantity crosses created
  rcases follow.between crosses created with ⟨between, atInstrument⟩
  rcases follow.shows with ⟨book, found, _⟩
  rw [← atInstrument] at found
  constructor
  · constructor
    · exact fair.settled found follow.buyWaits follow.sellWaits between
        different quantity
    · intro other member
      exact (follow.batch.waiting other
          ((afterPair_sublist _).subset member)).settleTrade
        fair.shape found follow.buyWaits.taken follow.sellWaits.taken
        (mem_afterPair follow.batch.distinct member)
    · exact follow.batch.distinct.sublist (afterPair_sublist _)
  · exact follow.buying.subset (unlessFilled_subset _ _ _)
  · exact follow.selling.subset (unlessFilled_subset _ _ _)
  · exact follow.shows_settled atInstrument
  · rcases follow.plan_eq crosses with
      ⟨iterations, made, enough, planned, recorded, idle⟩
    have buysLeft := quotes_unlessFilled
      (settleTrade_remaining_buy different)
      (fun other member =>
        follow.unchanged trade (List.mem_append_left _ member))
    have sellsLeft := quotes_unlessFilled
      (settleTrade_remaining_sell different)
      (fun other member =>
        follow.unchanged trade
          (List.mem_append_right _ (List.mem_append_left _ member)))
    refine ⟨iterations, made ++ [trade], ?_, ?_, ?_, ?_⟩
    · apply unlessFilled_length (settleTrade_fills different quantity)
      simp only [List.length_cons]
      omega
    · rw [recordTrade_market, buysLeft, sellsLeft, List.map_append,
        planned, quantity, List.map_cons, List.map_nil, quantity]
    · rw [← List.append_assoc, ← recorded]
      rfl
    · simp

/-- The pairs which have been traded once no pair is left. -/
theorem finished {left : List Order × List Order}
    (follow : PairsFollow instrumentId desk plan start rest left.1 left.2
      context)
    (done : PairingDone left) :
    ∃ made : List Trade,
      plan =
          ⟨made.map Trade.quantity, context.market.heap.quotes left.1,
            context.market.heap.quotes left.2⟩ ∧
        context.market.heap.trades = start.heap.trades ++ made ∧
        (made = [] → context.market = start) := by
  rcases follow.paired with ⟨iterations, made, _, planned, recorded, idle⟩
  refine ⟨made, ?_, recorded, idle⟩
  have ended : pairQuotes iterations (context.market.heap.quotes left.1)
      (context.market.heap.quotes left.2) =
        ⟨[], context.market.heap.quotes left.1,
          context.market.heap.quotes left.2⟩ := by
    rcases done with none | none |
      ⟨buyOrder, buyOrders, sellOrder, sellOrders, rfl, apart⟩
    · rw [none]
      cases iterations <;> rfl
    · rw [none]
      cases iterations with
      | zero => rfl
      | succ iterations =>
          cases context.market.heap.quotes left.1 <;> rfl
    · cases iterations with
      | zero => rfl
      | succ iterations =>
          rw [Heap.quotes_cons, Heap.quotes_cons, pairQuotes,
            if_neg apart]
  rw [planned, ended, PairedQuotes.after, List.append_nil]

end PairsFollow

/-- What the pairing loop leaves. -/
structure PairsLeft (instrumentId : String) (desk : Desk)
    (plan : PairedQuotes) (rest : List Order)
    (left : List Order × List Order) (context : BatchContext) : Prop where
  batch : BatchFair (left.1 ++ left.2 ++ rest) context
  inside : ∀ order ∈ left.1 ++ left.2, order.instrumentId = instrumentId
  shows : context.market.Shows instrumentId desk
  quotes : context.market.heap.quotes (left.1 ++ left.2) =
    plan.buys ++ plan.sells

/-- The pairing loop carries out the pairs of the desk. -/
theorem pairOrders_carriesOut {instrumentId : String} {desk : Desk}
    {iterations : ℕ}
    (batch : BatchFair (buyOrders ++ (sellOrders ++ rest)) context)
    (buying : Collected (fun _ => True) instrumentId .buy buyOrders)
    (selling : Collected (fun _ => True) instrumentId .sell sellOrders)
    (shows : context.market.Shows instrumentId desk)
    (enough : buyOrders.length + sellOrders.length < iterations) :
    CarriesOut BatchContext.market Market.progress DeskEffect.Possible
      (BatchMatchingEngine.pairOrders iterations buyOrders sellOrders)
      context
      ((pairQuotes iterations (context.market.heap.quotes buyOrders)
        (context.market.heap.quotes sellOrders)).amounts.map .trade)
      (fun left reached =>
        PairsLeft instrumentId desk
            (pairQuotes iterations (context.market.heap.quotes buyOrders)
              (context.market.heap.quotes sellOrders)) rest left reached ∧
          Market.Made
            ((pairQuotes iterations (context.market.heap.quotes buyOrders)
              (context.market.heap.quotes sellOrders)).amounts.map .trade)
            context.market reached.market) := by
  have loop := pairOrders_ends
    (PairsFollow instrumentId desk
      (pairQuotes iterations (context.market.heap.quotes buyOrders)
        (context.market.heap.quotes sellOrders)) context.market rest)
    (fun _ _ _ _ _ follow => follow.apart)
    (fun _ _ _ _ _ _ follow crosses created =>
      follow.step crosses created)
    iterations buyOrders sellOrders context
    ⟨batch, buying, selling, shows, iterations, [], enough, rfl,
      (List.append_nil _).symm, fun _ => rfl⟩ enough
  have done : ∀ (made : List Trade) (reached : BatchContext),
      reached.market.heap.trades = context.market.heap.trades ++ made →
      (made = [] → reached.market = context.market) →
        Done BatchContext.market Market.progress
          ((made.map Trade.quantity).map DeskEffect.trade) context
          reached := by
    intro made reached recorded idle
    cases made with
    | nil => exact idle rfl
    | cons trade rest =>
        exact Market.progress_lt_of_trades recorded
          (List.cons_ne_nil trade rest)
  refine loop.mono ?_ ?_
  · rintro left reached ⟨follow, ended⟩
    rcases follow.finished ended with ⟨made, planned, recorded, idle⟩
    rw [planned]
    refine ⟨possible_trades made, done made reached recorded idle, ?_,
      made, recorded, (DeskEffect.amounts_trades _).symm⟩
    constructor
    · rw [List.append_assoc]
      exact follow.batch
    · intro order member
      rcases List.mem_append.mp member with buys | sells
      · exact (follow.buying order buys).2.2
      · exact (follow.selling order sells).2.2
    · exact follow.shows
    · exact Heap.quotes_append ..
  · rintro exception reached
      ⟨buyOrder, buyOrders, sellOrder, sellOrders, follow, crosses,
        raised⟩
    rcases follow.plan_eq crosses with ⟨_, made, _, planned, recorded, idle⟩
    have split := congrArg (fun plan : PairedQuotes =>
      plan.amounts.map DeskEffect.trade) planned
    simp only [PairedQuotes.after, List.append_assoc, List.map_append,
      List.map_cons, List.cons_append, List.nil_append] at split
    exact ⟨_, _, _, split, possible_trades made,
      follow.fraction crosses raised, done made reached recorded idle⟩

end Pairs

/-! ## Orders which are left to the book -/

section Left

variable {order : Order} {orders rest : List Order}
  {context : BatchContext} {desk : Desk} {instrumentId : String}

/-- An order left to the book comes to the desk. -/
theorem addOrderToBook_carriesOut
    (batch : BatchFair (order :: rest) context)
    (shows : context.market.Shows order.instrumentId desk) :
    CarriesOut BatchContext.market Market.progress DeskEffect.Possible
      (BatchMatchingEngine.addOrderToBook order.instrumentId order)
      context
      (desk.effects (order, context.market.heap.remaining order))
      (fun _ reached =>
        BatchFair rest reached ∧
          reached.market.Shows order.instrumentId
            (desk.add (order, context.market.heap.remaining order)) ∧
          reached.market.heap.quotes rest =
            context.market.heap.quotes rest ∧
          Market.Made
            (desk.effects (order, context.market.heap.remaining order))
            context.market reached.market) := by
  rcases shows with ⟨book, found, rfl⟩
  have waits := batch.waiting order List.mem_cons_self
  have distinct := List.nodup_cons.mp batch.distinct
  have adds := onBook_addOrder_carriesOut batch.fair found waits
  have zoomed := @CarriesOut.zoom _ _ _ _ _ _ _ _ BatchContext.market
    Market.progress DeskEffect.Possible context _ BatchContext.market
    (fun market context => { context with market := market }) id _ _ rfl
    (fun _ => rfl) adds
  nth_rewrite 1 [← List.append_nil (Desk.effects _ _)]
  apply zoomed.bind
  rintro trades _ _ ⟨after, rfl, arrived⟩
  apply CarriesOut.of_ends
  rw [ends_modify]
  have different : ∀ other ∈ rest, other ≠ order := by
    rintro other member rfl
    exact distinct.1 member
  refine ⟨rfl, ⟨arrived.fair, ?_, distinct.2⟩, arrived.desk, ?_,
    arrived.made⟩
  · intro other member
    exact (batch.waiting other (List.mem_cons_of_mem _ member)).of_trading
      batch.fair.shape arrived.trading waits.taken (different other member)
  · apply List.map_congr_left
    intro other member
    exact congrArg (Prod.mk other)
      ((batch.waiting other
        (List.mem_cons_of_mem _ member)).remaining_eq batch.fair.shape
          arrived.trading waits.taken (different other member))

/-- The orders left to one book come to the desk one after another. -/
theorem addOrdersToBook_carriesOut
    (batch : BatchFair (orders ++ rest) context)
    (inside : ∀ order ∈ orders, order.instrumentId = instrumentId)
    (shows : context.market.Shows instrumentId desk) :
    CarriesOut BatchContext.market Market.progress DeskEffect.Possible
      (BatchMatchingEngine.addOrdersToBook instrumentId orders) context
      (desk.queueEffects (context.market.heap.quotes orders))
      (fun _ reached =>
        BatchFair rest reached ∧
          Market.Made
            (desk.queueEffects (context.market.heap.quotes orders))
            context.market reached.market) := by
  induction orders generalizing context desk with
  | nil => exact ⟨fun _ => nofun, rfl, batch, .refl⟩
  | cons order orders induction =>
      rcases inside order List.mem_cons_self with rfl
      change CarriesOut BatchContext.market Market.progress
        DeskEffect.Possible
        (BatchMatchingEngine.addOrderToBook order.instrumentId order >>=
          fun _ => BatchMatchingEngine.addOrdersToBook
            order.instrumentId orders) context _ _
      rw [Heap.quotes_cons, Desk.queueEffects]
      apply (addOrderToBook_carriesOut batch shows).bind
      rintro _ reached _ ⟨after, reachedShows, quotes, made⟩
      have all : reached.market.heap.quotes (orders ++ rest) =
          context.market.heap.quotes (orders ++ rest) := quotes
      have own : reached.market.heap.quotes orders =
          context.market.heap.quotes orders := by
        rw [Heap.quotes_append, Heap.quotes_append] at all
        exact (List.append_inj all (by simp [Heap.quotes])).1
      rw [← own]
      refine (induction after
        (fun other member =>
          inside other (List.mem_cons_of_mem _ member))
        reachedShows).mono ?_
      exact fun _ _ facts => ⟨facts.1, made.append facts.2⟩

end Left

/-! ## The whole batch -/

section Batch

variable {draw : String → ℚ} {market : Market}
  {collected : String × List Order} {rest : List Order}
  {context : BatchContext}

/-- The orders of one instrument are matched as planned. -/
theorem matchInstrument_carriesOut
    (batch : BatchFair (collected.2 ++ rest) context)
    (inside : ∀ order ∈ collected.2,
      order.instrumentId = collected.1) :
    CarriesOut BatchContext.market Market.progress DeskEffect.Possible
      (BatchMatchingEngine.matchInstrument draw collected) context
      (instrumentPlan draw context.market collected)
      (fun _ reached =>
        BatchFair rest reached ∧
          Market.Made (instrumentPlan draw context.market collected)
            context.market reached.market) := by
  cases found : context.market.orderBooks.get? collected.1 with
  | none =>
      have planned : instrumentPlan draw context.market collected = [] := by
        simp only [instrumentPlan, found]
      rw [planned]
      exact CarriesOut.of_ends
        (Ends.of_ok (matchInstrument_unlisted draw found)
          ⟨rfl, batch.subset (List.sublist_append_right _ _), .refl⟩)
  | some book =>
      have listed := OrderedDict.contains_of_get? found
      have sorted := @Collected.sorted (fun _ => True) _ _
        (fun order member => ⟨trivial, inside order member⟩) draw
      have start := batch.perm
        ((sides_perm draw collected.2).append_right rest)
      rw [List.append_assoc] at start
      have pairs := pairOrders_carriesOut start (sorted true .buy)
        (sorted false .sell) ⟨book, found, rfl⟩ (Nat.lt_succ_self _)
      rw [CarriesOut, BatchMatchingEngine.matchInstrument, ends_get_bind]
      simp only [if_pos listed, instrumentPlan, found]
      refine CarriesOut.bind pairs ?_
      rintro left reached _ ⟨after, made⟩
      rw [← after.quotes]
      refine (addOrdersToBook_carriesOut after.batch after.inside
        after.shows).mono ?_
      exact fun _ _ facts => ⟨facts.1, made.append facts.2⟩

/-- Only the book and the orders of an instrument matter for its plan. -/
theorem instrumentPlan_congr (fair : MarketFair market)
    (taken : ∀ order ∈ collected.2, order ∈ market.heap.orders ∧
      order.instrumentId = collected.1)
    (found : AsFound market collected.1 context) :
    instrumentPlan draw context.market collected =
      instrumentPlan draw market collected := by
  cases stored : market.orderBooks.get? collected.1 with
  | none =>
      simp only [instrumentPlan, found.book, stored]
  | some book =>
      have desk : BookState.desk ⟨context.market.heap, book⟩ =
          BookState.desk ⟨market.heap, book⟩ := by
        funext side
        apply List.map_congr_left
        intro order member
        apply congrArg (Prod.mk order)
        have resting := OrderBook.mem_resting_of_mem member
        exact found.remaining order
          (fair.shape.registered order ⟨_, book, stored, resting⟩)
          (fair.shape.instrument_of_rests stored resting)
      have quotes : ∀ (descending : Bool) (side : OrderSide),
          context.market.heap.quotes
              (BatchMatchingEngine.randomizeSamePriceOrders draw descending
                (collected.2.filter fun order => order.side = side)) =
            market.heap.quotes
              (BatchMatchingEngine.randomizeSamePriceOrders draw descending
                (collected.2.filter fun order => order.side = side)) := by
        intro descending side
        apply List.map_congr_left
        intro order member
        rw [BatchMatchingEngine.randomizeSamePriceOrders,
          List.mem_insertionSort, List.mem_filter] at member
        have facts := taken order member.1
        exact congrArg (Prod.mk order)
          (found.remaining order facts.1 facts.2)
      simp only [instrumentPlan, found.book, stored, desk, quotes]

/-- What holds while some instruments have still to be matched. -/
structure StillPlanned (draw : String → ℚ) (plan : List DeskEffect)
    (market : Market) (later : List (String × List Order))
    (context : BatchContext) : Prop where
  batch : BatchFair (ordersOf later) context
  made : ∃ done, plan = done ++ later.flatMap (instrumentPlan draw market) ∧
    Market.Made done market context.market
  orders : context.market.heap.orders = market.heap.orders
  found : ∀ collected ∈ later, AsFound market collected.1 context
  inside : ∀ collected ∈ later, ∀ order ∈ collected.2,
    order.instrumentId = collected.1
  apart : (later.map Prod.fst).Nodup

/-- A batch carries out its plan. -/
theorem runBatch_carriesOut {pending : PendingOrders}
    (fair : MarketFair market)
    (waiting : ∀ order ∈ ordersOf pending.entries, Waiting market order)
    (distinct : (ordersOf pending.entries).Nodup)
    (inside : ∀ collected ∈ pending.entries, ∀ order ∈ collected.2,
      order.instrumentId = collected.1) :
    CarriesOut BatchContext.market Market.progress DeskEffect.Possible
      (BatchMatchingEngine.runBatch draw pending)
      (BatchContext.start market) (batchPlan draw market pending)
      (fun _ reached =>
        MarketFair reached.market ∧
          Market.Made (batchPlan draw market pending) market
            reached.market) := by
  have loop : CarriesOut BatchContext.market Market.progress
      DeskEffect.Possible
      (BatchMatchingEngine.matchBatchOrders draw pending)
      (BatchContext.start market) (batchPlan draw market pending)
      (fun _ reached =>
        StillPlanned draw (batchPlan draw market pending) market []
          reached) := by
    refine CarriesOut.forM
      (StillPlanned draw (batchPlan draw market pending) market) ?_
      pending.entries
      ⟨⟨fair, waiting, distinct⟩, ⟨[], rfl, .refl⟩, rfl,
        fun _ _ => ⟨rfl, fun _ _ _ => rfl, rfl⟩, inside,
        pending.distinctKeys⟩
    intro collected later context still
    have member : collected ∈ collected :: later := List.mem_cons_self
    have covered : ∀ order ∈ collected.2,
        order ∈ context.market.heap.orders ∧
          order.instrumentId = collected.1 := fun order inOrders =>
      ⟨(still.batch.waiting order
          (List.mem_append_left _ inOrders)).taken,
        still.inside collected member order inOrders⟩
    have planned := @instrumentPlan_congr draw _ _ _ fair
      (still.orders ▸ covered) (still.found collected member)
    have matched := @matchInstrument_carriesOut draw _ _ _
      still.batch (still.inside collected member)
    rw [planned] at matched
    refine (matched.and (matchInstrument_touched draw covered
      still.batch.fair.shape)).mono ?_
    rintro _ reached ⟨⟨batch, made⟩, touched⟩
    rcases List.nodup_cons.mp still.apart with ⟨notLater, apart⟩
    rcases still.made with ⟨done, split, soFar⟩
    refine ⟨batch, ⟨_, ?_, soFar.append made⟩,
      touched.market.heap.orders.trans still.orders, ?_,
      fun other later => still.inside other (List.mem_cons_of_mem _ later),
      apart⟩
    · rw [split, List.flatMap_cons, List.append_assoc]
    intro other otherMember
    apply (still.found other (List.mem_cons_of_mem _ otherMember)).touched
      _ fair.shape.distinct still.orders touched
    intro equal
    apply notLater
    rw [← equal]
    exact List.mem_map_of_mem otherMember
  nth_rewrite 1 [← List.append_nil (batchPlan draw market pending)]
  apply loop.bind
  intro _ matched _ still
  apply CarriesOut.of_ends
  apply (finalizeResults_market pending matched).bind
  intro _ finished equal
  rw [ends_get_bind, ends_pure, equal]
  rcases still.made with ⟨done, split, made⟩
  rw [List.flatMap_nil, List.append_nil] at split
  exact ⟨rfl, still.batch.fair, split ▸ made⟩

end Batch

end InternTradingGame
