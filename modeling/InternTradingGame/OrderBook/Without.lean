import InternTradingGame.OrderBook.Queues

/-!
# Two books which differ by one order

While an order rests, the book with it and the book without it differ by
this order alone: each queue of the one is the queue of the other without
it.  Operations which do not concern the order keep the two books apart by
just that.
-/

namespace InternTradingGame

open Effects

/-- The second book is the first one without the order with the id. -/
structure Without (orderId : String) (left right : BookState) : Prop where
  leftInv : BookInv left
  rightInv : BookInv right
  queues : ∀ side, right.book.restingOn side =
    (left.book.restingOn side).filter fun other =>
      other.orderId ≠ orderId
  remaining : ∀ other, other ≠ orderId →
    left.heap.remainingQuantity other = right.heap.remainingQuantity other
  recorded : left.heap.trades = right.heap.trades
  instrument : left.book.instrumentId = right.book.instrumentId
  history : left.book.trades = right.book.trades
  map : right.book.orderPriceMap =
    left.book.orderPriceMap.erase orderId

namespace Without

variable {orderId : String} {left right : BookState} {order : Order}

/-- A book in which the id does not rest differs from no other book. -/
theorem refl (invariant : BookInv left)
    (missing : ∀ other ∈ left.book.resting, other.orderId ≠ orderId) :
    Without orderId left left where
  leftInv := invariant
  rightInv := invariant
  queues := by
    intro side
    refine (List.filter_eq_self.mpr ?_).symm
    intro other member
    simpa using missing other (OrderBook.mem_resting_of_mem member)
  remaining := fun _ _ => rfl
  recorded := rfl
  instrument := rfl
  history := rfl
  map := by
    rw [OrderedDict.erase_eq_keepKeys]
    refine (OrderedDict.keepKeys_eq_self ?_).symm
    intro key contained
    rcases (OrderedDict.contains_iff_exists _ _).mp contained with
      ⟨price, stored⟩
    rcases (invariant.shape.prices _ _).mp stored with ⟨other, member, rfl, _⟩
    exact decide_eq_true (missing other member)

theorem mem_restingOn_iff (without : Without orderId left right)
    {side : OrderSide} :
    order ∈ right.book.restingOn side ↔
      order ∈ left.book.restingOn side ∧ order.orderId ≠ orderId := by
  rw [without.queues, List.mem_filter, decide_eq_true_iff]

theorem mem_resting_iff (without : Without orderId left right) :
    order ∈ right.book.resting ↔
      order ∈ left.book.resting ∧ order.orderId ≠ orderId := by
  rw [@OrderBook.mem_resting_iff _ .buy, @OrderBook.mem_resting_iff _ .buy,
    without.mem_restingOn_iff, without.mem_restingOn_iff, or_and_right]

/-- The second book knows all ids but the one which is left out. -/
theorem orderIds_eq (without : Without orderId left right) :
    right.book.orderIds = left.book.orderIds.erase orderId :=
  orderIds_of_queues without.leftInv.shape without.rightInv.shape
    without.queues

/-- Without the order in either book, the books are the same. -/
theorem book_eq (without : Without orderId left right)
    (missing : ∀ other ∈ left.book.resting, other.orderId ≠ orderId) :
    left.book = right.book := by
  have queues : ∀ side, left.book.restingOn side =
      right.book.restingOn side := by
    intro side
    rw [without.queues]
    refine (List.filter_eq_self.mpr ?_).symm
    intro other member
    simpa using missing other (OrderBook.mem_resting_of_mem member)
  have levels : ∀ side, left.book.levels side = right.book.levels side := by
    intro side
    apply levels_determined without.leftInv without.rightInv (queues side)
    intro other member
    exact without.remaining other.orderId
      (missing other (OrderBook.mem_resting_of_mem member))
  have ids : left.book.orderIds = right.book.orderIds := by
    rw [without.orderIds_eq]
    refine (Finset.erase_eq_of_notMem ?_).symm
    intro known
    rcases (without.leftInv.shape.ids orderId).mp known with
      ⟨other, member, equal⟩
    exact missing other member equal
  have map : left.book.orderPriceMap = right.book.orderPriceMap := by
    rw [without.map]
    exact (refl without.leftInv missing).map
  have bids : left.book.bids = right.book.bids := levels .buy
  have asks : left.book.asks = right.book.asks := levels .sell
  rcases left with ⟨leftHeap, leftBook⟩
  rcases right with ⟨rightHeap, rightBook⟩
  rcases leftBook with
    ⟨leftId, leftBids, leftAsks, leftMap, leftIds, leftTrades⟩
  rcases rightBook with
    ⟨rightId, rightBids, rightAsks, rightMap, rightIds, rightTrades⟩
  have instrument : leftId = rightId := without.instrument
  have history : leftTrades = rightTrades := without.history
  subst instrument history bids asks map ids
  rfl

/-! ## Cancelling another order -/

/-- Cancelling on both sides an order which is not left out. -/
theorem cancelled_both {side : OrderSide} {nextLeft nextRight : BookState}
    (without : Without orderId left right)
    (leftCancelled : Cancelled side order left nextLeft)
    (rightCancelled : Cancelled side order right nextRight) :
    Without orderId nextLeft nextRight where
  leftInv := leftCancelled.keeps without.leftInv
  rightInv := rightCancelled.keeps without.rightInv
  queues := by
    intro which
    rw [leftCancelled.restingOn without.leftInv.shape,
      rightCancelled.restingOn without.rightInv.shape, without.queues,
      List.filter_filter, List.filter_filter]
    congr 1
    funext other
    exact Bool.and_comm _ _
  remaining := by
    rw [leftCancelled.heap, rightCancelled.heap]
    exact without.remaining
  recorded := by
    rw [leftCancelled.heap, rightCancelled.heap]
    exact without.recorded
  instrument := by
    rw [leftCancelled.removed.instrument,
      rightCancelled.removed.instrument]
    exact without.instrument
  history := by
    rw [leftCancelled.trades, rightCancelled.trades]
    exact without.history
  map := by
    rw [leftCancelled.removed.map, rightCancelled.removed.map,
      without.map]
    simp only [OrderedDict.erase_eq_keepKeys,
      OrderedDict.keepKeys_keepKeys]
    congr 1
    funext key
    exact Bool.and_comm _ _

/-- The order which is left out leaves the first book. -/
theorem cancelled_left {side : OrderSide} {nextLeft : BookState}
    (without : Without order.orderId left right)
    (cancelled : Cancelled side order left nextLeft) :
    Without order.orderId nextLeft right where
  leftInv := cancelled.keeps without.leftInv
  rightInv := without.rightInv
  queues := by
    intro which
    rw [cancelled.restingOn without.leftInv.shape, without.queues,
      List.filter_filter]
    congr 1
    funext other
    exact (Bool.and_self _).symm
  remaining := by
    rw [cancelled.heap]
    exact without.remaining
  recorded := by
    rw [cancelled.heap]
    exact without.recorded
  instrument := by
    rw [cancelled.removed.instrument]
    exact without.instrument
  history := by
    rw [cancelled.trades]
    exact without.history
  map := by
    rw [cancelled.removed.map, without.map]
    simp only [OrderedDict.erase_eq_keepKeys,
      OrderedDict.keepKeys_keepKeys]
    congr 1
    funext key
    exact (Bool.and_self _).symm

/-! ## Adding another order -/

theorem withOrder_both (without : Without orderId left right)
    (fresh : ∀ resting ∈ left.book.resting,
      resting.orderId ≠ order.orderId) :
    Without orderId (left.withOrder order) (right.withOrder order) where
  leftInv := without.leftInv.allocate fresh
  rightInv := by
    apply without.rightInv.allocate
    intro resting member
    exact fresh resting (without.mem_resting_iff.mp member).1
  queues := without.queues
  remaining := by
    intro other different
    by_cases same : other = order.orderId
    · rw [same]
      exact (Heap.remaining_allocate_self left.heap order).trans
        (Heap.remaining_allocate_self right.heap order).symm
    · exact (Heap.remainingQuantity_setRemaining_ne _ _ same).trans
        ((without.remaining other different).trans
          (Heap.remainingQuantity_setRemaining_ne _ _ same).symm)
  recorded := without.recorded
  instrument := without.instrument
  history := without.history
  map := without.map

section Add

variable {trades others : List Trade} {matched other : BookState}

/-- The same orders are served while the other one is not. -/
theorem remainingFills_eq (without : Without orderId left right)
    (different : order.orderId ≠ orderId)
    (unserved : ∀ served ∈ remainingFills order left,
      served.1.orderId ≠ orderId) :
    remainingFills order right = remainingFills order left := by
  have agree : ∀ candidate ∈
      acceptable order (right.book.restingOn order.side.opposite),
      right.heap.remaining candidate = left.heap.remaining candidate := by
    intro candidate member
    have onSide := (List.mem_filter.mp member).1
    exact (without.remaining _
      (without.mem_restingOn_iff.mp onSide).2).symm
  have narrowed :
      acceptable order (right.book.restingOn order.side.opposite) =
        (acceptable order (left.book.restingOn order.side.opposite)).filter
          fun candidate => candidate.orderId ≠ orderId := by
    rw [acceptable, acceptable, without.queues, List.filter_filter,
      List.filter_filter]
    congr 1
    funext candidate
    exact Bool.and_comm _ _
  have demand : right.heap.remaining order = left.heap.remaining order :=
    (without.remaining order.orderId different).symm
  rw [remainingFills, Greedy.allocate_congr _ _ agree, narrowed, demand]
  apply Greedy.allocate_filter
  intro served member
  simpa using unserved served member

/-- Matching on both sides an order which does not trade with the other. -/
theorem matched_both (without : Without orderId left right)
    (different : order.orderId ≠ orderId)
    (served : Served order left trades matched)
    (otherServed : Served order right others other)
    (untouched : ∀ trade ∈ trades, ¬ trade.Names orderId) :
    trades = others ∧ Without orderId matched other := by
  have unserved : ∀ one ∈ remainingFills order left,
      one.1.orderId ≠ orderId := by
    intro one member equal
    rcases exists_executes served.fills member with
      ⟨trade, inTrades, executes⟩
    exact untouched trade inTrades
      ((executes.2.names_iff _).mpr (Or.inr equal))
  have same : trades = others := by
    apply forall₂_executes_unique served.fills
    rw [← without.remainingFills_eq different unserved,
      without.instrument]
    exact otherServed.fills
  subst same
  have changes := served.sound.changes
  have otherChanges := otherServed.sound.changes
  have remaining : ∀ candidate, candidate ≠ orderId →
      matched.heap.remainingQuantity candidate =
        other.heap.remainingQuantity candidate := by
    intro candidate notLeftOut
    rw [changes.accounts, otherChanges.accounts,
      without.remaining candidate notLeftOut]
  have queues : ∀ side, other.book.restingOn side =
      (matched.book.restingOn side).filter fun candidate =>
        candidate.orderId ≠ orderId := by
    intro side
    by_cases own : side = order.side
    · rw [own, OrderBook.restingOn_congr otherChanges.own,
        OrderBook.restingOn_congr changes.own]
      exact without.queues order.side
    · rcases OrderSide.eq_opposite_of_ne own with rfl
      rw [served.queue, otherServed.queue, without.queues,
        List.filter_filter, List.filter_filter]
      apply List.filter_congr
      intro candidate _
      by_cases isLeftOut : candidate.orderId = orderId
      · simp [isLeftOut]
      · have agree : matched.heap.remaining candidate =
            other.heap.remaining candidate :=
          remaining candidate.orderId isLeftOut
        have filled : candidate.IsFilled matched.heap ↔
            candidate.IsFilled other.heap := by
          rw [Order.IsFilled, Order.IsFilled, agree]
        simp [isLeftOut, filled]
  have ids := orderIds_of_queues served.sound.invariant.shape
    otherServed.sound.invariant.shape queues
  refine ⟨rfl, ?_⟩
  exact
    { leftInv := served.sound.invariant
      rightInv := otherServed.sound.invariant
      queues := queues
      remaining := remaining
      recorded := by
        rw [changes.recorded, otherChanges.recorded, without.recorded]
      instrument := by
        rw [changes.instrument, otherChanges.instrument,
          without.instrument]
      history := by
        rw [served.recorded.history, otherServed.recorded.history,
          without.history]
      map := by
        rw [served.recorded.map, otherServed.recorded.map, without.map,
          ids]
        simp only [OrderedDict.erase_eq_keepKeys,
          OrderedDict.keepKeys_keepKeys]
        congr 1
        funext key
        by_cases same : key = orderId
        · simp [same]
        · simp [same] }

/-- The remainder of an order rests on both sides, or on neither. -/
theorem rest_both (without : Without orderId left right)
    (different : order.orderId ≠ orderId)
    (leftInv : BookInv (left.rest order))
    (rightInv : BookInv (right.rest order)) :
    Without orderId (left.rest order) (right.rest order) := by
  have remaining : left.heap.remaining order =
      right.heap.remaining order :=
    without.remaining order.orderId different
  have filled : order.IsFilled left.heap ↔
      order.IsFilled right.heap := by
    rw [Order.IsFilled, Order.IsFilled, remaining]
  have queues : ∀ side, (right.rest order).book.restingOn side =
      ((left.rest order).book.restingOn side).filter fun candidate =>
        candidate.orderId ≠ orderId := by
    intro side
    by_cases own : side = order.side
    · subst own
      by_cases leaves : order.IsFilled left.heap ∨ ¬ order.IsLimitOrder
      · rw [rest_restingOn_of_leaves leaves,
          rest_restingOn_of_leaves (leaves.imp_left filled.mp)]
        exact without.queues order.side
      · have unfilled : ¬ order.IsFilled left.heap :=
          fun filled => leaves (Or.inl filled)
        have isLimit : order.IsLimitOrder :=
          not_not.mp fun notLimit => leaves (Or.inr notLimit)
        rcases order.isLimitOrder_iff.mp isLimit with ⟨limit, priced⟩
        rw [(rest_restsLast without.leftInv.shape unfilled
            priced).eq_filter,
          (rest_restsLast without.rightInv.shape
            (mt filled.mpr unfilled) priced).eq_filter,
          without.queues, List.filter_append,
          List.filter_cons_of_pos (by simpa using different)]
        simp only [List.filter_filter, Bool.and_comm]
    · rcases OrderSide.eq_opposite_of_ne own with rfl
      rw [rest_restingOn_opposite, rest_restingOn_opposite]
      exact without.queues order.side.opposite
  have books : (left.rest order).book.instrumentId =
        (right.rest order).book.instrumentId ∧
      (left.rest order).book.trades = (right.rest order).book.trades ∧
      (right.rest order).book.orderPriceMap =
        (left.rest order).book.orderPriceMap.erase orderId := by
    cases priced : order.price with
    | none =>
        simp only [BookState.rest, priced]
        exact ⟨without.instrument, without.history, without.map⟩
    | some limit =>
        by_cases isFilled : order.IsFilled left.heap
        · simp only [BookState.rest, priced, if_pos isFilled,
            if_pos (filled.mp isFilled)]
          exact ⟨without.instrument, without.history, without.map⟩
        · simp only [BookState.rest, priced, if_neg isFilled,
            if_neg (mt filled.mpr isFilled), BookState.inserted,
            OrderBook.setLevels_instrumentId, OrderBook.setLevels_trades]
          refine ⟨without.instrument, without.history, ?_⟩
          rw [without.map, OrderedDict.erase_eq_keepKeys,
            OrderedDict.erase_eq_keepKeys]
          exact (@OrderedDict.keepKeys_set_of_kept _ _ _
            (fun other => other ≠ orderId) _ _ _
            (decide_eq_true different)).symm
  exact
    { leftInv := leftInv
      rightInv := rightInv
      queues := queues
      remaining := by
        rw [rest_heap, rest_heap]
        exact without.remaining
      recorded := by
        rw [rest_heap, rest_heap]
        exact without.recorded
      instrument := books.1
      history := books.2.1
      map := books.2.2 }

end Add

/-! ## The order arrives -/

/-- An order which arrives and does not trade is all that is new. -/
theorem arrived {state : BookState} (invariant : BookInv state)
    (fresh : ∀ resting ∈ state.book.resting,
      resting.orderId ≠ order.orderId)
    (restedInv : BookInv ((state.withOrder order).rest order)) :
    Without order.orderId ((state.withOrder order).rest order) state where
  leftInv := restedInv
  rightInv := invariant
  queues := by
    have kept : ∀ side, (state.book.restingOn side).filter
        (fun other => other.orderId ≠ order.orderId) =
          state.book.restingOn side := by
      intro side
      rw [List.filter_eq_self]
      intro other member
      simpa using fresh other (OrderBook.mem_resting_of_mem member)
    have shape : BookShape (state.withOrder order).book := invariant.shape
    intro side
    by_cases own : side = order.side
    · subst own
      by_cases leaves : order.IsFilled (state.withOrder order).heap ∨
          ¬ order.IsLimitOrder
      · rw [rest_restingOn_of_leaves leaves]
        exact (kept order.side).symm
      · have unfilled : ¬ order.IsFilled (state.withOrder order).heap :=
          fun filled => leaves (Or.inl filled)
        have isLimit : order.IsLimitOrder :=
          not_not.mp fun notLimit => leaves (Or.inr notLimit)
        rcases order.isLimitOrder_iff.mp isLimit with ⟨limit, priced⟩
        rcases (rest_restsLast shape unfilled priced).place with
          ⟨ahead, behind, whole, grown, _⟩
        have same : state.book.restingOn order.side = ahead ++ behind :=
          whole
        have split := kept order.side
        rw [same, List.filter_append] at split
        rw [grown, List.filter_append, List.filter_cons_of_neg (by simp),
          split, same]
    · rcases OrderSide.eq_opposite_of_ne own with rfl
      rw [rest_restingOn_opposite]
      exact (kept order.side.opposite).symm
  remaining := by
    intro other different
    rw [rest_heap]
    exact Heap.remainingQuantity_setRemaining_ne _ _ different
  recorded := by
    rw [rest_heap]
    rfl
  instrument := rest_instrumentId
  history := by
    rcases @rest_cases order (state.withOrder order) with
      unchanged | ⟨limit, _, _, inserted⟩
    · rw [unchanged]
      rfl
    · rw [inserted, BookState.inserted, OrderBook.setLevels_trades]
      rfl
  map := by
    have alone := (refl invariant fresh).map
    rcases @rest_cases order (state.withOrder order) with
      unchanged | ⟨limit, _, _, inserted⟩
    · rw [unchanged]
      exact alone
    · rw [inserted]
      refine alone.trans ?_
      exact (@OrderedDict.keepKeys_set_of_dropped _ _ _
        (fun other => other ≠ order.orderId) _ _ _
        (decide_eq_false (not_not.mpr rfl))).symm

end Without

end InternTradingGame
