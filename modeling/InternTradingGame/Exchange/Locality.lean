import InternTradingGame.Exchange.Engines
import InternTradingGame.OrderBook.Alike

/-!
# Work on one instrument stays there

Adding an order, cancelling one and matching the collected orders of an
instrument read the book of that instrument and the orders they work on, and
they write nowhere else.  `Market.Alike` and `BatchContext.Alike` say this of
two runs at once: alike starts end alike, and in neither of the runs another
book, the result of another order or the remaining quantity of an order
outside the scope has changed.
-/

namespace InternTradingGame

open Effects

/-! ## Markets -/

/-- Only one book and the given orders are touched. -/
structure Market.Touched (ids : Set String) (instrumentId : String)
    (before after : Market) : Prop where
  heap : Heap.Touched ids instrumentId before.heap after.heap
  keys : after.orderBooks.keys = before.orderBooks.keys
  books : ∀ other, other ≠ instrumentId →
    after.orderBooks.get? other = before.orderBooks.get? other

/-- The same book of one instrument in two markets. -/
structure Market.Alike (scope : Scope Market) (left right : Market) :
    Prop where
  heap : Heap.Alike scope.ids scope.seen left.heap right.heap
  first : Market.Touched scope.ids scope.instrumentId scope.first left
  second : Market.Touched scope.ids scope.instrumentId scope.second right
  book : left.orderBooks.get? scope.instrumentId =
    right.orderBooks.get? scope.instrumentId
  within : ∀ book,
    left.orderBooks.get? scope.instrumentId = some book →
      book.instrumentId = scope.instrumentId ∧ book.Within scope.ids

section Market

variable {ids : Set String} {instrumentId : String}
  {before market : Market} {scope : Scope Market} {left right : Market}

theorem Market.Touched.refl (market : Market) :
    Market.Touched ids instrumentId market market :=
  ⟨Heap.Touched.refl _, rfl, fun _ _ => rfl⟩

/-- A program of the book has run on the book. -/
theorem Market.Touched.withBook
    (touched : Market.Touched ids instrumentId before market)
    {book : OrderBook} {part : BookState}
    (found : market.orderBooks.get? instrumentId = some book)
    (heap : Heap.Touched ids instrumentId before.heap part.heap) :
    Market.Touched ids instrumentId before
      (market.withBook instrumentId part) where
  heap := heap
  keys := (Market.withBook_keys part found).trans touched.keys
  books other different :=
    (Market.withBook_get?_ne _ _ different).trans
      (touched.books other different)

/-- A local program on the book of the scope. -/
theorem onBook_alike {α : Type} {program : BookM α}
    (isLocal : OrderBook.Local scope.ids program)
    (alike : Market.Alike scope left right) :
    Lockstep (Market.Alike scope)
      (Market.onBook scope.instrumentId program)
      (Market.onBook scope.instrumentId program) left right := by
  rw [Market.onBook]
  apply Lockstep.reads
  rw [← alike.book]
  cases found : left.orderBooks.get? scope.instrumentId with
  | none => exact Lockstep.raises _ alike
  | some book =>
      have otherFound := alike.book.symm.trans found
      rcases alike.within book found with ⟨named, within⟩
      have start : BookState.Alike (scope.map Market.heap)
          ⟨left.heap, book⟩ ⟨right.heap, book⟩ :=
        ⟨alike.heap, alike.first.heap, alike.second.heap, rfl, named,
          within⟩
      let view := fun market : Market => BookState.mk market.heap book
      have inside : Lockstep (BookState.Alike (scope.map Market.heap))
          program program (view left) (view right) :=
        isLocal (scope.map Market.heap) rfl _ _ start
      apply Lockstep.zooms inside
      intro part other reached
      exact
        { heap := reached.heap
          first := alike.first.withBook found reached.first
          second := alike.second.withBook otherFound reached.second
          book := by
            rw [OrderedDict.get?_set_self, OrderedDict.get?_set_self,
              reached.book]
          within := by
            intro changed changedFound
            rw [OrderedDict.get?_set_self] at changedFound
            rcases Option.some.inj changedFound with rfl
            exact ⟨reached.named, reached.within⟩ }

theorem continuous_submitOrder_alike {order : Order}
    (instrument : order.instrumentId = scope.instrumentId)
    (known : order.orderId ∈ scope.ids)
    (alike : Market.Alike scope left right) :
    Lockstep (Market.Alike scope)
      (ContinuousMatchingEngine.submitOrder order)
      (ContinuousMatchingEngine.submitOrder order) left right := by
  rw [ContinuousMatchingEngine.submitOrder, instrument]
  apply (onBook_alike (addOrder_local known) alike).bind
  intro trades reached other alike
  apply Lockstep.reads
  have same := alike.heap.of_order known
  simp only [Order.IsFilled, same]
  exact Lockstep.returns _ alike

end Market

/-! ## Batches -/

/-- Only one instrument and the given orders are touched. -/
structure BatchContext.Touched (ids : Set String) (instrumentId : String)
    (before after : BatchContext) : Prop where
  market : Market.Touched ids instrumentId before.market after.market
  results : ∀ other, other ≠ instrumentId →
    after.results.get? other = before.results.get? other

/-- The same book and the same results of one instrument. -/
structure BatchContext.Alike (scope : Scope BatchContext)
    (left right : BatchContext) : Prop where
  market : Market.Alike (scope.map BatchContext.market) left.market
    right.market
  results : left.results.get? scope.instrumentId =
    right.results.get? scope.instrumentId
  first : ∀ other, other ≠ scope.instrumentId →
    left.results.get? other = scope.first.results.get? other
  second : ∀ other, other ≠ scope.instrumentId →
    right.results.get? other = scope.second.results.get? other

/-- The orders belong to the scope. -/
def Scope.Covers {σ : Type} (scope : Scope σ) (orders : List Order) :
    Prop :=
  ∀ order ∈ orders, order.orderId ∈ scope.ids ∧
    order.instrumentId = scope.instrumentId

theorem Scope.Covers.subset {σ : Type} {scope : Scope σ}
    {orders fewer : List Order} (covers : scope.Covers orders)
    (sub : fewer ⊆ orders) : scope.Covers fewer :=
  fun order member => covers order (sub member)

section Batch

variable {scope : Scope BatchContext} {left right : BatchContext}
  {order : Order}

open BatchMatchingEngine

theorem BatchContext.Alike.remaining
    (alike : BatchContext.Alike scope left right)
    (known : order.orderId ∈ scope.ids) :
    left.market.heap.remaining order = right.market.heap.remaining order :=
  alike.market.heap.of_order known

theorem BatchContext.Alike.setMarket
    (alike : BatchContext.Alike scope left right) {market other : Market}
    (markets :
      Market.Alike (scope.map BatchContext.market) market other) :
    BatchContext.Alike scope { left with market := market }
      { right with market := other } :=
  ⟨markets, alike.results, alike.first, alike.second⟩

/-- The results of the instrument of the scope are written. -/
theorem BatchContext.Alike.setResult
    (alike : BatchContext.Alike scope left right) (result : OrderResult) :
    BatchContext.Alike scope (left.setResult scope.instrumentId result)
      (right.setResult scope.instrumentId result) where
  market := alike.market
  results := by
    rw [BatchContext.setResult, BatchContext.setResult, alike.results,
      OrderedDict.get?_set_self, OrderedDict.get?_set_self]
  first other different :=
    (OrderedDict.get?_set_ne _ _ different).trans
      (alike.first other different)
  second other different :=
    (OrderedDict.get?_set_ne _ _ different).trans
      (alike.second other different)

theorem BatchContext.Alike.getOrCreateResult
    (alike : BatchContext.Alike scope left right)
    (known : order.orderId ∈ scope.ids) :
    left.getOrCreateResult scope.instrumentId order =
      right.getOrCreateResult scope.instrumentId order := by
  rw [BatchContext.getOrCreateResult, BatchContext.getOrCreateResult,
    alike.results, alike.remaining known]

theorem BatchContext.Alike.extendFills
    (alike : BatchContext.Alike scope left right)
    (known : order.orderId ∈ scope.ids) (fills : List Trade) :
    BatchContext.Alike scope
      (left.extendFills scope.instrumentId order fills)
      (right.extendFills scope.instrumentId order fills) := by
  rw [BatchContext.extendFills, BatchContext.extendFills,
    alike.getOrCreateResult known]
  exact alike.setResult _

/-- What a trade of a pair does to the heap. -/
def settleHeap (trade : Trade) (buyOrder sellOrder : Order)
    (heap : Heap) : Heap :=
  let bought :=
    (heap.record trade).setRemaining buyOrder.orderId
      (heap.remaining buyOrder - trade.quantity)
  bought.setRemaining sellOrder.orderId
    (bought.remaining sellOrder - trade.quantity)

theorem settleHeap_alike {ids : Set String} {seen : Trade → Bool}
    {first second : Heap} {trade : Trade} {buyOrder sellOrder : Order}
    (alike : Heap.Alike ids seen first second)
    (buyKnown : buyOrder.orderId ∈ ids)
    (sellKnown : sellOrder.orderId ∈ ids) :
    Heap.Alike ids seen (settleHeap trade buyOrder sellOrder first)
      (settleHeap trade buyOrder sellOrder second) := by
  have bought := (alike.record trade).setRemaining buyOrder.orderId
    (second.remaining buyOrder - trade.quantity)
  rw [settleHeap, settleHeap, alike.of_order buyKnown,
    bought.of_order sellKnown]
  exact bought.setRemaining _ _

theorem settleHeap_touched {ids : Set String} {instrumentId : String}
    {before heap : Heap} {trade : Trade} {buyOrder sellOrder : Order}
    (touched : Heap.Touched ids instrumentId before heap)
    (instrument : trade.instrumentId = instrumentId)
    (buyKnown : buyOrder.orderId ∈ ids)
    (sellKnown : sellOrder.orderId ∈ ids) :
    Heap.Touched ids instrumentId before
      (settleHeap trade buyOrder sellOrder heap) :=
  ((touched.record instrument).setRemaining buyKnown _).setRemaining
    sellKnown _

/-- The two orders of the scope lose the quantity. -/
theorem settleTrade_alike {markets : Scope Market}
    {first second : Market} {trade : Trade} {buyOrder sellOrder : Order}
    (alike : Market.Alike markets first second)
    (instrument : trade.instrumentId = markets.instrumentId)
    (buyKnown : buyOrder.orderId ∈ markets.ids)
    (sellKnown : sellOrder.orderId ∈ markets.ids) :
    Market.Alike markets (settleTrade trade buyOrder sellOrder first)
      (settleTrade trade buyOrder sellOrder second) := by
  have heap := @settleHeap_alike _ _ _ _ trade _ _ alike.heap buyKnown
    sellKnown
  have firstHeap := settleHeap_touched alike.first.heap instrument
    buyKnown sellKnown
  have secondHeap := settleHeap_touched alike.second.heap instrument
    buyKnown sellKnown
  cases found : first.orderBooks.get? markets.instrumentId with
  | none =>
      have otherFound := alike.book.symm.trans found
      simp only [settleTrade, instrument, found, otherFound]
      exact
        { heap
          first := ⟨firstHeap, alike.first.keys, alike.first.books⟩
          second := ⟨secondHeap, alike.second.keys, alike.second.books⟩
          book := alike.book
          within := alike.within }
  | some book =>
      have otherFound := alike.book.symm.trans found
      rcases alike.within book found with ⟨named, within⟩
      have firstMarket : Market.Touched markets.ids markets.instrumentId
          markets.first
          (first.withBook markets.instrumentId
            ⟨settleHeap trade buyOrder sellOrder first.heap,
              book.appendTrade trade⟩) :=
        alike.first.withBook found firstHeap
      have secondMarket : Market.Touched markets.ids
          markets.instrumentId markets.second
          (second.withBook markets.instrumentId
            ⟨settleHeap trade buyOrder sellOrder second.heap,
              book.appendTrade trade⟩) :=
        alike.second.withBook otherFound secondHeap
      simp only [settleTrade, instrument, found, otherFound]
      exact
        { heap
          first := firstMarket
          second := secondMarket
          book := by
            rw [OrderedDict.get?_set_self, OrderedDict.get?_set_self]
          within := by
            intro changed changedFound
            rw [OrderedDict.get?_set_self] at changedFound
            rcases Option.some.inj changedFound with rfl
            refine ⟨(OrderBook.appendTrade_instrumentId ..).trans named,
              within.congr fun side => ?_⟩
            exact OrderBook.levels_appendTrade book side trade }

theorem recordTrade_alike {trade : Trade} {buyOrder sellOrder : Order}
    (alike : BatchContext.Alike scope left right)
    (instrument : trade.instrumentId = scope.instrumentId)
    (buyKnown : buyOrder.orderId ∈ scope.ids)
    (sellKnown : sellOrder.orderId ∈ scope.ids) :
    BatchContext.Alike scope (recordTrade trade buyOrder sellOrder left)
      (recordTrade trade buyOrder sellOrder right) := by
  rw [recordTrade, recordTrade, instrument]
  have settled := alike.setMarket
    (settleTrade_alike alike.market instrument buyKnown sellKnown)
  exact (settled.extendFills buyKnown [trade]).extendFills sellKnown
    [trade]

theorem createTrade_instrument {buyOrder sellOrder : Order}
    {quantity : ℚ} {trade : Trade}
    (created : createTrade buyOrder sellOrder quantity = .ok trade) :
    trade.instrumentId = buyOrder.instrumentId := by
  rw [createTrade] at created
  cases priced : sellOrder.price with
  | none =>
      rw [priced] at created
      cases created
  | some price =>
      rw [priced] at created
      exact (Trade.new_ok created).instrument

theorem pairOrders_alike (iterations : Nat)
    {buyOrders sellOrders : List Order}
    (buys : scope.Covers buyOrders) (sells : scope.Covers sellOrders)
    (alike : BatchContext.Alike scope left right) :
    Lockstep (BatchContext.Alike scope)
      (pairOrders iterations buyOrders sellOrders)
      (pairOrders iterations buyOrders sellOrders) left right := by
  induction iterations generalizing buyOrders sellOrders left right with
  | zero => exact Lockstep.raises _ alike
  | succ iterations induction =>
      match buyOrders, sellOrders with
      | [], _ => exact Lockstep.returns _ alike
      | _ :: _, [] => exact Lockstep.returns _ alike
      | buyOrder :: otherBuys, sellOrder :: otherSells =>
          have buy := buys buyOrder List.mem_cons_self
          have sell := sells sellOrder List.mem_cons_self
          rw [pairOrders]
          cases buyOrder.price with
          | none => exact Lockstep.returns _ alike
          | some bid =>
              cases sellOrder.price with
              | none => exact Lockstep.returns _ alike
              | some ask =>
                  apply Lockstep.branches Iff.rfl
                  · intro _
                    apply Lockstep.reads
                    simp only [alike.remaining buy.1,
                      alike.remaining sell.1]
                    apply Lockstep.lifts_bind alike
                    intro trade created
                    have instrument :=
                      (createTrade_instrument created).trans buy.2
                    apply (Lockstep.modifies
                      (recordTrade_alike alike instrument buy.1
                        sell.1)).bind
                    intro _ settled other alike
                    apply Lockstep.reads
                    simp only [Order.IsFilled, alike.remaining buy.1,
                      alike.remaining sell.1]
                    apply induction _ _ alike
                    · exact buys.subset (unlessFilled_subset buyOrder
                        otherBuys other.market.heap)
                    · exact sells.subset (unlessFilled_subset sellOrder
                        otherSells other.market.heap)
                  · intro _
                    exact Lockstep.returns _ alike

theorem addOrderToBook_alike
    (alike : BatchContext.Alike scope left right)
    (known : order.orderId ∈ scope.ids) :
    Lockstep (BatchContext.Alike scope)
      (addOrderToBook scope.instrumentId order)
      (addOrderToBook scope.instrumentId order) left right := by
  rw [addOrderToBook]
  have inMarket := @onBook_alike (scope.map BatchContext.market)
    left.market right.market _ (OrderBook.addOrder order)
    (addOrder_local known) alike.market
  have inBatch : Lockstep (BatchContext.Alike scope)
      (BatchContext.onMarket
        (Market.onBook scope.instrumentId (OrderBook.addOrder order)))
      (BatchContext.onMarket
        (Market.onBook scope.instrumentId (OrderBook.addOrder order)))
      left right :=
    Lockstep.zooms inMarket fun _ _ markets => alike.setMarket markets
  apply inBatch.bind
  intro trades _ _ alike
  exact Lockstep.modifies (alike.extendFills known trades)

/-- What is left of the two queues was in them before. -/
theorem pairOrders_subset (iterations : Nat)
    (buyOrders sellOrders : List Order) (context : BatchContext) :
    Ends (pairOrders iterations buyOrders sellOrders) context
      (fun queues _ =>
        queues.1 ⊆ buyOrders ∧ queues.2 ⊆ sellOrders)
      (fun _ _ => True) := by
  induction iterations generalizing buyOrders sellOrders context with
  | zero => trivial
  | succ iterations induction =>
      have stops : ∀ context : BatchContext,
          Ends (pure (buyOrders, sellOrders) :
              BatchM (List Order × List Order)) context
            (fun queues _ =>
              queues.1 ⊆ buyOrders ∧ queues.2 ⊆ sellOrders)
            (fun _ _ => True) :=
        fun _ => ⟨List.Subset.refl _, List.Subset.refl _⟩
      match buyOrders, sellOrders with
      | [], _ => exact stops context
      | _ :: _, [] => exact stops context
      | buyOrder :: otherBuys, sellOrder :: otherSells =>
          rw [pairOrders]
          cases buyOrder.price with
          | none => exact stops context
          | some bid =>
              cases sellOrder.price with
              | none => exact stops context
              | some ask =>
                  by_cases crosses : ask ≤ bid
                  · simp only [if_pos crosses]
                    rw [ends_get_bind]
                    cases createTrade buyOrder sellOrder
                        (min (context.market.heap.remaining buyOrder)
                          (context.market.heap.remaining sellOrder)) with
                    | error exception => trivial
                    | ok trade =>
                        refine (induction _ _ _).mono ?_
                          fun _ _ holds => holds
                        rintro queues _ ⟨buys, sells⟩
                        exact
                          ⟨List.Subset.trans buys
                              (unlessFilled_subset buyOrder otherBuys _),
                            List.Subset.trans sells
                              (unlessFilled_subset sellOrder otherSells
                                _)⟩
                  · simp only [if_neg crosses]
                    exact stops context

/-- Matching the collected orders of the instrument of the scope. -/
theorem matchInstrument_alike (draw : String → ℚ) {orders : List Order}
    (covers : scope.Covers orders)
    (alike : BatchContext.Alike scope left right) :
    Lockstep (BatchContext.Alike scope)
      (matchInstrument draw (scope.instrumentId, orders))
      (matchInstrument draw (scope.instrumentId, orders)) left right := by
  have sorted : ∀ (descending : Bool) (side : OrderSide),
      scope.Covers
        (randomizeSamePriceOrders draw descending
          (orders.filter fun order => order.side = side)) := by
    intro descending side order member
    rw [randomizeSamePriceOrders, List.mem_insertionSort,
      List.mem_filter] at member
    exact covers order member.1
  have contains : left.market.orderBooks.Contains scope.instrumentId ↔
      right.market.orderBooks.Contains scope.instrumentId := by
    rw [OrderedDict.contains_iff_exists, OrderedDict.contains_iff_exists]
    have same := alike.market.book
    change left.market.orderBooks.get? scope.instrumentId =
      right.market.orderBooks.get? scope.instrumentId at same
    rw [same]
  rw [matchInstrument]
  apply Lockstep.reads
  apply Lockstep.branches contains
  · intro _
    apply (pairOrders_alike _ (sorted true .buy) (sorted false .sell)
      alike).bind_evaluated
    intro queues reached other evaluated alike
    have subsets := (pairOrders_subset _ _ _ left).elim_ok evaluated
    apply Lockstep.forM _ alike
    intro order member reached other alike
    apply addOrderToBook_alike alike
    rcases List.mem_append.mp member with buys | sells
    · exact (sorted true .buy order (subsets.1 buys)).1
    · exact (sorted false .sell order (subsets.2 sells)).1
  · intro _
    exact Lockstep.returns _ alike

/-- Writing the final results of the instrument of the scope. -/
theorem finalizeResult_alike
    (alike : BatchContext.Alike scope left right)
    (known : order.orderId ∈ scope.ids) :
    BatchContext.Alike scope
      (finalizeResult scope.instrumentId order left)
      (finalizeResult scope.instrumentId order right) := by
  simp only [finalizeResult, Order.IsFilled,
    alike.getOrCreateResult known, alike.remaining known]
  exact alike.setResult _

theorem finalizeInstrument_alike {orders : List Order}
    (covers : scope.Covers orders)
    (alike : BatchContext.Alike scope left right) :
    BatchContext.Alike scope
      (orders.foldl
        (fun context order =>
          finalizeResult scope.instrumentId order context) left)
      (orders.foldl
        (fun context order =>
          finalizeResult scope.instrumentId order context) right) := by
  induction orders generalizing left right with
  | nil => exact alike
  | cons order rest induction =>
      have known := (covers order List.mem_cons_self).1
      exact induction (covers.subset (List.subset_cons_self _ _))
        (finalizeResult_alike alike known)

end Batch

end InternTradingGame
