import InternTradingGame.OrderBook.Shape

/-!
# What one iteration of the matching loop does

On a well-formed book an iteration of the loop has three outcomes.  It
leaves the loop without a change when the order is filled, when the opposite
side is empty or when the best price is refused.  It raises without a change
when the trade is not accepted by its constructor.  Otherwise it makes one
trade with the first order of the best level, and the new state is
`BookState.afterFill`.

Everything later modules say about the loop rests on this case distinction.
-/

namespace InternTradingGame

open Effects

/-! ## The state after one trade -/

/-- The parties and the data of one trade of the matching loop. -/
structure Fill where
  matching : Order
  best : PriceLevel
  deeper : List PriceLevel
  queue : List Order
  trade : Trade

namespace Fill

variable (fill : Fill)

/-- The best level without its first order. -/
def shrunk (heap : Heap) : PriceLevel where
  price := fill.best.price
  orders := fill.queue
  totalQuantity :=
    fill.best.totalQuantity - fill.trade.quantity -
      (heap.remaining fill.matching - fill.trade.quantity)

/-- The best level with its first order partly filled. -/
def reduced : PriceLevel :=
  { fill.best with
    totalQuantity := fill.best.totalQuantity - fill.trade.quantity }

/-- The heap once both orders have been filled by the trade. -/
def heapAfter (order : Order) (heap : Heap) : Heap :=
  ((heap.record fill.trade).setRemaining order.orderId
      (heap.remaining order - fill.trade.quantity)).setRemaining
    fill.matching.orderId
    (heap.remaining fill.matching - fill.trade.quantity)

/-- The trade fills the resting order completely. -/
def Completes (heap : Heap) : Prop :=
  heap.remaining fill.matching = fill.trade.quantity

instance (heap : Heap) : Decidable (fill.Completes heap) :=
  inferInstanceAs (Decidable (_ = _))

/-- The book once the trade has been made. -/
def bookAfter (order : Order) (heap : Heap) (book : OrderBook) :
    OrderBook :=
  let recorded := book.appendTrade fill.trade
  if fill.Completes heap then
    { recorded.setLevels order.side.opposite
        ((fill.shrunk heap).listed ++ fill.deeper) with
      orderIds := recorded.orderIds.erase fill.matching.orderId
      orderPriceMap :=
        recorded.orderPriceMap.erase fill.matching.orderId }
  else
    recorded.setLevels order.side.opposite (fill.reduced :: fill.deeper)

end Fill

/-- The state once the trade has been made. -/
def BookState.afterFill (state : BookState) (order : Order)
    (fill : Fill) : BookState where
  heap := fill.heapAfter order state.heap
  book := fill.bookAfter order state.heap state.book

/-- The loop meets this trade next. -/
structure Fill.Next (fill : Fill) (order : Order)
    (state : BookState) : Prop where
  unfilled : ¬ order.IsFilled state.heap
  side :
    state.book.levels order.side.opposite = fill.best :: fill.deeper
  head : fill.best.orders = fill.matching :: fill.queue
  accepted : ¬ order.Refuses fill.best.price
  created :
    state.book.newTrade order fill.matching fill.best.price
      (min (state.heap.remaining order)
        (state.heap.remaining fill.matching)) = .ok fill.trade

/-- The loop ends here. -/
def MatchingDone (order : Order) (state : BookState) : Prop :=
  order.IsFilled state.heap ∨
    state.book.levels order.side.opposite = [] ∨
    ∃ best deeper,
      state.book.levels order.side.opposite = best :: deeper ∧
        order.Refuses best.price

/-! ## The trade itself -/

namespace OrderBook

/-- The trade of an incoming order, whichever side it is on. -/
structure TradeOf (trade : Trade) (instrumentId : String)
    (order matching : Order) (price quantity : ℚ) : Prop where
  instrument : trade.instrumentId = instrumentId
  atPrice : trade.price = price
  forQuantity : trade.quantity = quantity
  aggressor : trade.aggressorSide = order.side
  buying : order.side = .buy →
    trade.buyerOrderId = order.orderId ∧
      trade.buyerId = order.traderId ∧
      trade.sellerOrderId = matching.orderId ∧
      trade.sellerId = matching.traderId
  selling : order.side = .sell →
    trade.buyerOrderId = matching.orderId ∧
      trade.buyerId = matching.traderId ∧
      trade.sellerOrderId = order.orderId ∧
      trade.sellerId = order.traderId

theorem newTrade_ok {book : OrderBook} {order matching : Order}
    {price quantity : ℚ} {trade : Trade}
    (created :
      book.newTrade order matching price quantity = .ok trade) :
    TradeOf trade book.instrumentId order matching price quantity := by
  unfold newTrade at created
  cases side : order.side with
  | buy =>
      rw [side] at created
      have described := Trade.new_ok created
      exact
        { instrument := described.instrument
          atPrice := described.atPrice
          forQuantity := described.forQuantity
          aggressor := described.aggressor.trans side.symm
          buying := fun _ =>
            ⟨described.buyerOrder, described.buyer,
              described.sellerOrder, described.seller⟩
          selling := fun selling => by simp [side] at selling }
  | sell =>
      rw [side] at created
      have described := Trade.new_ok created
      exact
        { instrument := described.instrument
          atPrice := described.atPrice
          forQuantity := described.forQuantity
          aggressor := described.aggressor.trans side.symm
          buying := fun buying => by simp [side] at buying
          selling := fun _ =>
            ⟨described.buyerOrder, described.buyer,
              described.sellerOrder, described.seller⟩ }

theorem exists_newTrade {price quantity : ℚ}
    (book : OrderBook) (order matching : Order)
    (pricePositive : 0 < price) (quantityPositive : 0 < quantity)
    (whole : Whole quantity) :
    ∃ trade, book.newTrade order matching price quantity = .ok trade := by
  unfold newTrade
  cases order.side with
  | buy => exact Trade.exists_new pricePositive quantityPositive whole
  | sell => exact Trade.exists_new pricePositive quantityPositive whole

namespace TradeOf

variable {trade : Trade} {instrumentId : String}
  {order matching : Order} {price quantity : ℚ}

theorem names_iff
    (tradeOf :
      TradeOf trade instrumentId order matching price quantity)
    (orderId : String) :
    trade.Names orderId ↔
      order.orderId = orderId ∨ matching.orderId = orderId := by
  unfold Trade.Names
  cases side : order.side with
  | buy =>
      rcases tradeOf.buying side with ⟨buyer, _, seller, _⟩
      rw [buyer, seller]
  | sell =>
      rcases tradeOf.selling side with ⟨buyer, _, seller, _⟩
      rw [buyer, seller]
      exact Or.comm

end TradeOf

end OrderBook

namespace Fill.Next

variable {fill : Fill} {order : Order} {state : BookState}

theorem tradeOf (next : fill.Next order state) :
    OrderBook.TradeOf fill.trade state.book.instrumentId
      order fill.matching fill.best.price
      (min (state.heap.remaining order)
        (state.heap.remaining fill.matching)) :=
  OrderBook.newTrade_ok next.created

theorem quantity (next : fill.Next order state) :
    fill.trade.quantity =
      min (state.heap.remaining order)
        (state.heap.remaining fill.matching) :=
  next.tradeOf.forQuantity

theorem quantity_le_order (next : fill.Next order state) :
    fill.trade.quantity ≤ state.heap.remaining order :=
  next.quantity ▸ min_le_left _ _

theorem quantity_le_matching (next : fill.Next order state) :
    fill.trade.quantity ≤ state.heap.remaining fill.matching :=
  next.quantity ▸ min_le_right _ _

/-- A resting order that is not completed has filled the incoming one. -/
theorem order_filled_of_not_completes (next : fill.Next order state)
    (partly : ¬ fill.Completes state.heap) :
    fill.trade.quantity = state.heap.remaining order := by
  rcases min_choice (state.heap.remaining order)
      (state.heap.remaining fill.matching) with equal | equal
  · exact next.quantity.trans equal
  · exact absurd (next.quantity.trans equal).symm partly

theorem mem_levels (next : fill.Next order state) :
    fill.best ∈ state.book.levels order.side.opposite := by
  rw [next.side]
  exact List.mem_cons_self

theorem mem_orders (next : fill.Next order state) :
    fill.matching ∈ fill.best.orders := by
  rw [next.head]
  exact List.mem_cons_self

theorem restingOn (next : fill.Next order state) :
    state.book.restingOn order.side.opposite =
      fill.matching ::
        (fill.queue ++ fill.deeper.flatMap PriceLevel.orders) := by
  rw [OrderBook.restingOn, next.side, List.flatMap_cons, next.head,
    List.cons_append]

theorem mem_resting (next : fill.Next order state) :
    fill.matching ∈ state.book.resting := by
  apply @OrderBook.mem_resting_of_mem _ order.side.opposite
  rw [next.restingOn]
  exact List.mem_cons_self

end Fill.Next

/-! ## Evaluating one iteration -/

section Evaluation

variable {fill : Fill} {order : Order} {state : BookState}

theorem fillOrder_apply {quantity : ℚ} {heap reached : Heap}
    {book : OrderBook}
    (filled : order.fill heap quantity = .ok reached) :
    OrderBook.fillOrder order quantity ⟨heap, book⟩ =
      .ok ⟨⟩ ⟨reached, book⟩ := by
  simp [OrderBook.fillOrder, filled]

theorem removeOrderId_apply {orderId : String}
    (present : orderId ∈ state.book.orderIds) :
    OrderBook.removeOrderId orderId state =
      .ok ⟨⟩
        { state with
          book :=
            { state.book with
              orderIds := state.book.orderIds.erase orderId } } := by
  simp [OrderBook.removeOrderId, present]

theorem deleteOrderPrice_apply {orderId : String}
    (present : state.book.orderPriceMap.Contains orderId) :
    OrderBook.deleteOrderPrice orderId state =
      .ok ⟨⟩
        { state with
          book :=
            { state.book with
              orderPriceMap :=
                state.book.orderPriceMap.erase orderId } } := by
  simp [OrderBook.deleteOrderPrice, present]

/-- Removing the first order of a level by its id. -/
theorem removeOrder_head {level : PriceLevel} {matching : Order}
    {queue : List Order} (heap : Heap)
    (head : level.orders = matching :: queue) :
    level.removeOrder heap matching.orderId =
      ({ level with
          orders := queue
          totalQuantity :=
            level.totalQuantity - heap.remaining matching },
        some matching) := by
  simp [PriceLevel.removeOrder, head]

theorem dropFilled_apply {side : OrderSide} {best : PriceLevel}
    {deeper : List PriceLevel} {matching : Order} {queue : List Order}
    (head : best.orders = matching :: queue)
    (listed : matching.orderId ∈ state.book.orderIds)
    (priced : state.book.orderPriceMap.Contains matching.orderId) :
    OrderBook.dropFilled side best deeper matching state =
      .ok ⟨⟩
        { state with
          book :=
            { state.book.setLevels side
                (PriceLevel.listed
                    { best with
                      orders := queue
                      totalQuantity :=
                        best.totalQuantity -
                          state.heap.remaining matching } ++
                  deeper) with
              orderIds := state.book.orderIds.erase matching.orderId
              orderPriceMap :=
                state.book.orderPriceMap.erase matching.orderId } } := by
  simp only [OrderBook.dropFilled, bind_apply, get_apply,
    modify_apply, removeOrder_head state.heap head]
  rw [removeOrderId_apply
    (by simpa [BookState.setLevels] using listed)]
  simp only []
  rw [deleteOrderPrice_apply
    (by simpa [BookState.setLevels] using priced)]
  cases queue with
  | nil =>
      simp [PriceLevel.isEmpty, PriceLevel.listed]
      cases side <;> rfl
  | cons next others =>
      simp [PriceLevel.isEmpty, PriceLevel.listed]

theorem matchIteration_done (done : MatchingDone order state) :
    OrderBook.matchIteration order state = .ok none state := by
  rcases done with filled | empty | ⟨best, deeper, side, refuses⟩
  · simp [OrderBook.matchIteration, filled]
  · by_cases filled : order.IsFilled state.heap
    · simp [OrderBook.matchIteration, filled]
    · simp [OrderBook.matchIteration, filled, empty]
  · by_cases filled : order.IsFilled state.heap
    · simp [OrderBook.matchIteration, filled]
    · simp [OrderBook.matchIteration, filled, side, refuses]

theorem matchIteration_rejected
    {best : PriceLevel} {deeper : List PriceLevel}
    {matching : Order} {queue : List Order} {exception : PyError}
    (unfilled : ¬ order.IsFilled state.heap)
    (side : state.book.levels order.side.opposite = best :: deeper)
    (head : best.orders = matching :: queue)
    (accepted : ¬ order.Refuses best.price)
    (raised :
      state.book.newTrade order matching best.price
        (min (state.heap.remaining order)
          (state.heap.remaining matching)) = .error exception) :
    OrderBook.matchIteration order state = .error exception state := by
  simp [OrderBook.matchIteration, unfilled, side, head, accepted, raised]

theorem matchIteration_fill
    (shape : BookShape state.book)
    (absent : order.orderId ∉ state.book.orderIds)
    (next : fill.Next order state) :
    OrderBook.matchIteration order state =
      .ok (some fill.trade) (state.afterFill order fill) := by
  have member := next.mem_resting
  have different : fill.matching.orderId ≠ order.orderId :=
    shape.not_mem_resting absent fill.matching member
  have positive := fill.trade.quantity_positive
  have fillsOrder :
      order.fill (state.heap.record fill.trade) fill.trade.quantity =
        .ok ((state.heap.record fill.trade).setRemaining order.orderId
          (state.heap.remaining order - fill.trade.quantity)) :=
    order.fill_ok _ positive next.quantity_le_order
  have unchanged :
      ((state.heap.record fill.trade).setRemaining order.orderId
          (state.heap.remaining order - fill.trade.quantity)).remaining
          fill.matching =
        state.heap.remaining fill.matching :=
    Heap.remaining_setRemaining_ne _ _ different
  have fillsMatching :
      fill.matching.fill
          ((state.heap.record fill.trade).setRemaining order.orderId
            (state.heap.remaining order - fill.trade.quantity))
          fill.trade.quantity =
        .ok (fill.heapAfter order state.heap) := by
    rw [fill.matching.fill_ok _ positive
      (unchanged.symm ▸ next.quantity_le_matching), unchanged]
    rfl
  have remainingAfter :
      (fill.heapAfter order state.heap).remaining fill.matching =
        state.heap.remaining fill.matching - fill.trade.quantity :=
    Heap.remaining_setRemaining_self ..
  have created :
      state.book.newTrade order fill.matching fill.best.price
        fill.trade.quantity = .ok fill.trade :=
    next.quantity ▸ next.created
  simp only [OrderBook.matchIteration, bind_apply, get_apply,
    if_neg next.unfilled, next.side, if_neg next.accepted, next.head,
    ← next.quantity, created, lift_ok, modify_apply,
    BookState.recordTrade, fillOrder_apply fillsOrder,
    fillOrder_apply fillsMatching]
  by_cases completes : fill.Completes state.heap
  · have filled :
        fill.matching.IsFilled (fill.heapAfter order state.heap) :=
      remainingAfter.trans (sub_eq_zero.mpr completes)
    have head : fill.reduced.orders = fill.matching :: fill.queue :=
      next.head
    have reduced :
        PriceLevel.mk fill.best.price (fill.matching :: fill.queue)
            (fill.best.totalQuantity - fill.trade.quantity) =
          fill.reduced := by
      rw [Fill.reduced, next.head]
    rw [branch_apply]
    simp only [BookState.setLevels, if_pos filled, bind_apply, reduced]
    rw [dropFilled_apply head
      (by simpa using shape.contains_orderId member)
      (by simpa using shape.contains_price member)]
    simp [BookState.afterFill, Fill.bookAfter, completes, Fill.shrunk,
      Fill.reduced, remainingAfter]
  · have unfilled :
        ¬ fill.matching.IsFilled (fill.heapAfter order state.heap) := by
      intro filled
      exact completes (sub_eq_zero.mp (remainingAfter.symm.trans filled))
    rw [branch_apply]
    simp only [BookState.setLevels, if_neg unfilled, pure_apply,
      BookState.afterFill, Fill.bookAfter, if_neg completes,
      Fill.reduced, next.head]

/-- The three outcomes of one iteration. -/
theorem matchIteration_cases
    (shape : BookShape state.book)
    (absent : order.orderId ∉ state.book.orderIds) :
    (MatchingDone order state ∧
        OrderBook.matchIteration order state = .ok none state) ∨
      (∃ (fill : Fill), fill.Next order state ∧
        OrderBook.matchIteration order state =
          .ok (some fill.trade) (state.afterFill order fill)) ∨
      ∃ best deeper matching queue exception,
        ¬ order.IsFilled state.heap ∧
        state.book.levels order.side.opposite = best :: deeper ∧
        best.orders = matching :: queue ∧
        ¬ order.Refuses best.price ∧
        state.book.newTrade order matching best.price
          (min (state.heap.remaining order)
            (state.heap.remaining matching)) = .error exception ∧
        OrderBook.matchIteration order state =
          .error exception state := by
  by_cases done : MatchingDone order state
  · exact Or.inl ⟨done, matchIteration_done done⟩
  · have unfilled : ¬ order.IsFilled state.heap :=
      fun filled => done (Or.inl filled)
    cases side : state.book.levels order.side.opposite with
    | nil => exact absurd (Or.inr (Or.inl side)) done
    | cons best deeper =>
        have accepted : ¬ order.Refuses best.price :=
          fun refuses =>
            done (Or.inr (Or.inr ⟨best, deeper, side, refuses⟩))
        have occupied : best.orders ≠ [] :=
          (shape.side order.side.opposite).occupied best
            (side ▸ List.mem_cons_self)
        rcases List.exists_cons_of_ne_nil occupied with
          ⟨matching, queue, head⟩
        cases created :
            state.book.newTrade order matching best.price
              (min (state.heap.remaining order)
                (state.heap.remaining matching)) with
        | ok trade =>
            have next :
                (Fill.mk matching best deeper queue trade).Next
                  order state :=
              ⟨unfilled, side, head, accepted, created⟩
            exact Or.inr (Or.inl
              ⟨_, next, matchIteration_fill shape absent next⟩)
        | error exception =>
            exact Or.inr (Or.inr
              ⟨best, deeper, matching, queue, exception, unfilled, rfl,
                head, accepted, created,
                matchIteration_rejected unfilled side head accepted
                  created⟩)

end Evaluation

/-! ## The change of the book -/

namespace Fill.Next

variable {fill : Fill} {order : Order} {state : BookState}

/-- The levels of the other side once a resting order is completed. -/
theorem levels_of_completes (completes : fill.Completes state.heap) :
    (state.afterFill order fill).book.levels order.side.opposite =
      (fill.shrunk state.heap).listed ++ fill.deeper := by
  simp only [BookState.afterFill, Fill.bookAfter, if_pos completes]
  cases order.side <;> rfl

/-- A completed trade takes the resting order out of the book. -/
theorem removed (next : fill.Next order state)
    (shape : BookShape state.book)
    (completes : fill.Completes state.heap) :
    Removed order.side.opposite fill.matching state.book
      (state.afterFill order fill).book := by
  refine
    @Removed.of_levels _ _ _ _ [] fill.deeper fill.best
      (fill.shrunk state.heap) [] fill.queue
      (shape.side order.side.opposite) next.side
      (levels_of_completes completes) rfl next.head rfl ?_ ?_ ?_ ?_
  · simp [BookState.afterFill, Fill.bookAfter, completes]
  · simp only [BookState.afterFill, Fill.bookAfter, if_pos completes]
    cases order.side <;> rfl
  · simp [BookState.afterFill, Fill.bookAfter, completes]
  · simp [BookState.afterFill, Fill.bookAfter, completes]

end Fill.Next

/-- Two books whose levels list the same orders at the same prices. -/
structure SameShape (book changed : OrderBook) : Prop where
  instrument : changed.instrumentId = book.instrumentId
  levels : ∀ side,
    (changed.levels side).map (fun level => (level.price, level.orders)) =
      (book.levels side).map fun level => (level.price, level.orders)
  ids : changed.orderIds = book.orderIds
  map : changed.orderPriceMap = book.orderPriceMap

namespace SameShape

variable {book changed later : OrderBook}

theorem refl (book : OrderBook) : SameShape book book :=
  ⟨rfl, fun _ => rfl, rfl, rfl⟩

theorem trans (first : SameShape book changed)
    (second : SameShape changed later) : SameShape book later where
  instrument := second.instrument.trans first.instrument
  levels side := (second.levels side).trans (first.levels side)
  ids := second.ids.trans first.ids
  map := second.map.trans first.map

theorem restingOn (same : SameShape book changed) (side : OrderSide) :
    changed.restingOn side = book.restingOn side := by
  have orders := congrArg (List.map Prod.snd) (same.levels side)
  simp only [List.map_map, Function.comp_def] at orders
  simp only [OrderBook.restingOn, List.flatMap_def]
  exact congrArg List.flatten orders

theorem resting (same : SameShape book changed) :
    changed.resting = book.resting := by
  rw [OrderBook.resting, OrderBook.resting, same.restingOn,
    same.restingOn]

theorem exists_level (same : SameShape book changed) {side : OrderSide}
    {level : PriceLevel} (member : level ∈ changed.levels side) :
    ∃ original ∈ book.levels side,
      original.price = level.price ∧
        original.orders = level.orders := by
  have image :
      (level.price, level.orders) ∈
        (book.levels side).map
          fun level => (level.price, level.orders) :=
    same.levels side ▸ List.mem_map_of_mem member
  rcases List.mem_map.mp image with ⟨original, originalMember, pairEqual⟩
  exact ⟨original, originalMember, (Prod.mk.inj pairEqual).1,
    (Prod.mk.inj pairEqual).2⟩

theorem keeps (same : SameShape book changed)
    (shape : BookShape book) : BookShape changed where
  side side := by
    rw [same.instrument]
    exact (shape.side side).of_map_eq (same.levels side)
  distinct := by
    rw [same.resting]
    exact shape.distinct
  ids := by
    intro orderId
    rw [same.ids, same.resting]
    exact shape.ids orderId
  prices := by
    intro orderId price
    rw [same.map, same.resting]
    exact shape.prices orderId price
  uncrossed := by
    intro bid bidMember ask askMember
    rcases @exists_level _ _ same .buy _ bidMember with
      ⟨bidBefore, bidBeforeMember, bidPrice, _⟩
    rcases @exists_level _ _ same .sell _ askMember with
      ⟨askBefore, askBeforeMember, askPrice, _⟩
    rw [← bidPrice, ← askPrice]
    exact shape.uncrossed bidBefore bidBeforeMember
      askBefore askBeforeMember

end SameShape

namespace Fill.Next

variable {fill : Fill} {order : Order} {state : BookState}

/-- A trade that does not complete the resting order moves nothing. -/
theorem sameShape (next : fill.Next order state)
    (partly : ¬ fill.Completes state.heap) :
    SameShape state.book (state.afterFill order fill).book where
  instrument := by
    simp [BookState.afterFill, Fill.bookAfter, partly]
  levels := by
    intro side
    by_cases own : side = order.side.opposite
    · subst own
      simp [BookState.afterFill, Fill.bookAfter, partly, next.side,
        Fill.reduced]
    · have equal := OrderSide.eq_opposite_of_ne own
      rw [OrderSide.opposite_opposite] at equal
      subst equal
      have untouched :
          (state.afterFill order fill).book.levels order.side =
            state.book.levels order.side := by
        simp only [BookState.afterFill, Fill.bookAfter, if_neg partly]
        cases order.side <;> rfl
      rw [untouched]
  ids := by simp [BookState.afterFill, Fill.bookAfter, partly]
  map := by simp [BookState.afterFill, Fill.bookAfter, partly]

/-- The levels of the other side after a partial fill. -/
theorem levels_of_not_completes
    (partly : ¬ fill.Completes state.heap) :
    (state.afterFill order fill).book.levels order.side.opposite =
      fill.reduced :: fill.deeper := by
  simp [BookState.afterFill, Fill.bookAfter, partly]

theorem resting_subset (next : fill.Next order state)
    (shape : BookShape state.book) :
    (state.afterFill order fill).book.resting ⊆
      state.book.resting := by
  intro other member
  by_cases completes : fill.Completes state.heap
  · exact (next.removed shape completes).mem_resting_iff.mpr
      (Or.inr member)
  · rw [(next.sameShape completes).resting] at member
    exact member

/-- One trade keeps the shape of the book. -/
theorem shape (next : fill.Next order state)
    (shape : BookShape state.book) :
    BookShape (state.afterFill order fill).book := by
  by_cases completes : fill.Completes state.heap
  · exact (next.removed shape completes).keeps shape
  · exact (next.sameShape completes).keeps shape

/-- The opposite queue after the trade. -/
theorem restingOn_after (next : fill.Next order state) :
    (state.afterFill order fill).book.restingOn order.side.opposite =
      if fill.Completes state.heap then
        fill.queue ++ fill.deeper.flatMap PriceLevel.orders
      else
        state.book.restingOn order.side.opposite := by
  by_cases completes : fill.Completes state.heap
  · rw [if_pos completes, OrderBook.restingOn,
      levels_of_completes completes, List.flatMap_append,
      PriceLevel.flatMap_listed]
    rfl
  · rw [if_neg completes]
    exact (next.sameShape completes).restingOn _

end Fill.Next

section AfterFill

variable (fill : Fill) (order : Order) (state : BookState)

theorem afterFill_orderIds_subset :
    (state.afterFill order fill).book.orderIds ⊆
      state.book.orderIds := by
  by_cases completes : fill.Completes state.heap
  · simp [BookState.afterFill, Fill.bookAfter, completes,
      Finset.erase_subset]
  · simp [BookState.afterFill, Fill.bookAfter, completes]

/-- The side of the incoming order is not touched. -/
theorem afterFill_levels :
    (state.afterFill order fill).book.levels order.side =
      state.book.levels order.side := by
  by_cases completes : fill.Completes state.heap
  · simp only [BookState.afterFill, Fill.bookAfter, if_pos completes]
    cases order.side <;> rfl
  · simp only [BookState.afterFill, Fill.bookAfter, if_neg completes]
    cases order.side <;> rfl

theorem afterFill_instrumentId :
    (state.afterFill order fill).book.instrumentId =
      state.book.instrumentId := by
  by_cases completes : fill.Completes state.heap
  · simp [BookState.afterFill, Fill.bookAfter, completes]
  · simp [BookState.afterFill, Fill.bookAfter, completes]

end AfterFill

end InternTradingGame
