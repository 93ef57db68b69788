import InternTradingGame.OrderBook.Priority

/-!
# A book is determined by its queues

The levels of a sound book are what its queues say, with the orders grouped
by price.  So the effect of a call on a book is its effect on the two
queues: matching takes the filled orders out of one, and the remainder of a
limit order joins the other one, last at its price.
-/

namespace InternTradingGame

open Effects

/-! ## The levels of a queue -/

/-- The orders of one side grouped by price, the best price first. -/
def levelsOf (heap : Heap) (side : OrderSide) (orders : List Order) :
    List PriceLevel :=
  ((orders.filterMap Order.price).dedup.insertionSort side.AtLeast).map
    fun price =>
      { price := price
        orders := orders.filter fun order => order.price = some price
        totalQuantity := remainingAt heap orders price }

section Levels

variable {state left right : BookState}

theorem levels_eq_levelsOf (invariant : BookInv state)
    (side : OrderSide) :
    state.book.levels side =
      levelsOf state.heap side (state.book.restingOn side) := by
  rw [levelsOf, prices_eq invariant.shape, List.map_map]
  refine ((List.map_congr_left ?_).trans (List.map_id _)).symm
  intro level member
  have total := invariant.quantities.totals side level member
  have orders := filter_price invariant.shape member
  rw [Function.comp_apply, remainingAt, orders, ← total]
  rfl

theorem levelsOf_congr {heap other : Heap} (side : OrderSide)
    {orders : List Order}
    (agree : ∀ order ∈ orders,
      heap.remaining order = other.remaining order) :
    levelsOf heap side orders = levelsOf other side orders := by
  have totals : ∀ price,
      remainingAt heap orders price = remainingAt other orders price := by
    intro price
    rw [remainingAt, remainingAt]
    congr 1
    apply List.map_congr_left
    intro order member
    exact agree order (List.mem_filter.mp member).1
  rw [levelsOf, levelsOf]
  apply List.map_congr_left
  intro price _
  rw [totals price]

/-- Two sound books with the same queue have the same levels. -/
theorem levels_determined (leftInv : BookInv left)
    (rightInv : BookInv right) {side : OrderSide}
    (queues : left.book.restingOn side = right.book.restingOn side)
    (agree : ∀ order ∈ left.book.restingOn side,
      left.heap.remaining order = right.heap.remaining order) :
    left.book.levels side = right.book.levels side := by
  rw [levels_eq_levelsOf leftInv, levels_eq_levelsOf rightInv, ← queues]
  exact levelsOf_congr side agree

/-- The prices of a side are those at which something is left. -/
theorem mem_prices_iff (invariant : BookInv state) {side : OrderSide}
    {price : ℚ} :
    price ∈ (state.book.restingOn side).filterMap Order.price ↔
      0 < remainingAt state.heap (state.book.restingOn side) price := by
  rw [List.mem_filterMap, remainingAt]
  constructor
  · rintro ⟨order, member, priced⟩
    apply List.sum_pos
    · intro quantity inList
      rcases List.mem_map.mp inList with ⟨other, inFilter, rfl⟩
      exact invariant.quantities.positive other
        (OrderBook.mem_resting_of_mem (List.mem_filter.mp inFilter).1)
    · exact List.ne_nil_of_mem (List.mem_map_of_mem
        (List.mem_filter.mpr ⟨member, decide_eq_true priced⟩))
  · intro positive
    by_contra none
    have empty : ((state.book.restingOn side).filter
        fun order => order.price = some price) = [] := by
      rw [List.filter_eq_nil_iff]
      intro order member priced
      exact none ⟨order, member, of_decide_eq_true priced⟩
    rw [empty] at positive
    exact lt_irrefl _ positive

/-- What is left at every price determines the price table. -/
theorem priceTable_determined (leftInv : BookInv left)
    (rightInv : BookInv right) (side : OrderSide)
    (totals : ∀ price,
      remainingAt left.heap (left.book.restingOn side) price =
        remainingAt right.heap (right.book.restingOn side) price) :
    priceTable left.heap side (left.book.restingOn side) =
      priceTable right.heap side (right.book.restingOn side) := by
  have prices :
      ((left.book.restingOn side).filterMap
          Order.price).dedup.insertionSort side.AtLeast =
        ((right.book.restingOn side).filterMap
          Order.price).dedup.insertionSort side.AtLeast := by
    apply List.Perm.eq_of_pairwise
    · intro first second _ _ forward backward
      exact @OrderSide.AtLeast.antisymm side _ _ forward backward
    · exact List.pairwise_insertionSort _ _
    · exact List.pairwise_insertionSort _ _
    · refine (List.perm_insertionSort _ _).trans
        (List.Perm.trans ?_ (List.perm_insertionSort _ _).symm)
      apply (List.perm_ext_iff_of_nodup (List.nodup_dedup _)
        (List.nodup_dedup _)).mpr
      intro price
      rw [List.mem_dedup, List.mem_dedup, mem_prices_iff leftInv,
        mem_prices_iff rightInv, totals]
  rw [priceTable, priceTable, prices]
  apply List.map_congr_left
  intro price _
  rw [totals]

/-- A book whose queues lack one order lacks its id. -/
theorem orderIds_of_queues {orderId : String}
    (leftShape : BookShape left.book) (rightShape : BookShape right.book)
    (queues : ∀ side, right.book.restingOn side =
      (left.book.restingOn side).filter fun other =>
        other.orderId ≠ orderId) :
    right.book.orderIds = left.book.orderIds.erase orderId := by
  have resting : right.book.resting =
      left.book.resting.filter fun other => other.orderId ≠ orderId := by
    rw [OrderBook.resting, OrderBook.resting, queues, queues,
      List.filter_append]
  ext other
  rw [Finset.mem_erase, rightShape.ids, leftShape.ids, resting]
  constructor
  · rintro ⟨order, member, rfl⟩
    rcases List.mem_filter.mp member with ⟨inLeft, different⟩
    exact ⟨of_decide_eq_true different, order, inLeft, rfl⟩
  · rintro ⟨different, order, member, rfl⟩
    exact ⟨order,
      List.mem_filter.mpr ⟨member, decide_eq_true different⟩, rfl⟩

end Levels

/-! ## The place of a remainder -/

/-- The orders before and behind the place are those of its price. -/
theorem RestsLast.eq_filter {order : Order} {limit : ℚ}
    {before after : List Order}
    (last : RestsLast order limit before after) :
    after =
      (before.filter
          fun other => ¬ order.side.Better limit other.limit) ++
        order ::
          before.filter
            fun other => order.side.Better limit other.limit := by
  rcases last.place with ⟨ahead, behind, rfl, rfl, notWorse, worse⟩
  have front : (ahead.filter
      fun other => ¬ order.side.Better limit other.limit) = ahead := by
    simpa [List.filter_eq_self] using notWorse
  have none : (behind.filter
      fun other => ¬ order.side.Better limit other.limit) = [] := by
    simpa [List.filter_eq_nil_iff] using worse
  have empty : (ahead.filter
      fun other => order.side.Better limit other.limit) = [] := by
    simpa [List.filter_eq_nil_iff] using notWorse
  have back : (behind.filter
      fun other => order.side.Better limit other.limit) = behind := by
    simpa [List.filter_eq_self] using worse
  rw [List.filter_append, List.filter_append, front, none, empty, back,
    List.append_nil, List.nil_append]

/-! ## What matching leaves in the indexes and in the history -/

/-- The bounded history with one more trade. -/
def pushTrade (history : List Trade) (trade : Trade) : List Trade :=
  (history ++ [trade]).drop (history.length + 1 - tradeHistoryLength)

/-- The price map has lost the filled orders, the history has the trades. -/
structure Recorded (start : BookState) (trades : List Trade)
    (reached : BookState) : Prop where
  history : reached.book.trades = trades.foldl pushTrade start.book.trades
  map : reached.book.orderPriceMap =
    start.book.orderPriceMap.keepKeys
      fun orderId => orderId ∈ reached.book.orderIds
  idle : trades = [] → reached = start

namespace Recorded

variable {order : Order} {start reached : BookState}
  {trades : List Trade} {fill : Fill}

theorem refl (shape : BookShape start.book) :
    Recorded start [] start where
  history := rfl
  map := by
    refine (OrderedDict.keepKeys_eq_self ?_).symm
    intro orderId contained
    rcases (OrderedDict.contains_iff_exists _ _).mp contained with
      ⟨price, stored⟩
    rcases (shape.prices _ _).mp stored with ⟨order, member, rfl, _⟩
    exact decide_eq_true (shape.contains_orderId member)
  idle := fun _ => rfl

/-- One more trade is recorded. -/
theorem step (recorded : Recorded start trades reached) :
    Recorded start (trades ++ [fill.trade])
      (reached.afterFill order fill) where
  history := by
    rw [List.foldl_append, ← recorded.history, List.foldl_cons,
      List.foldl_nil]
    by_cases completes : fill.Completes reached.heap
    · simp [BookState.afterFill, Fill.bookAfter, completes,
        OrderBook.appendTrade, pushTrade]
    · simp [BookState.afterFill, Fill.bookAfter, completes,
        OrderBook.appendTrade, pushTrade]
  map := by
    by_cases completes : fill.Completes reached.heap
    · have ids : (reached.afterFill order fill).book.orderIds =
          reached.book.orderIds.erase fill.matching.orderId := by
        simp [BookState.afterFill, Fill.bookAfter, completes]
      have map : (reached.afterFill order fill).book.orderPriceMap =
          reached.book.orderPriceMap.erase fill.matching.orderId := by
        simp [BookState.afterFill, Fill.bookAfter, completes]
      rw [ids, map, recorded.map, OrderedDict.erase_eq_keepKeys,
        OrderedDict.keepKeys_keepKeys]
      congr 1
      funext orderId
      simp [Finset.mem_erase]
    · have ids : (reached.afterFill order fill).book.orderIds =
          reached.book.orderIds := by
        simp [BookState.afterFill, Fill.bookAfter, completes]
      have map : (reached.afterFill order fill).book.orderPriceMap =
          reached.book.orderPriceMap := by
        simp [BookState.afterFill, Fill.bookAfter, completes]
      rw [ids, map]
      exact recorded.map
  idle made := absurd made (List.concat_ne_nil _ _)

end Recorded

/-! ## What a call does to the queues -/

/-- The fills of an allocation determine the trades. -/
theorem Executes.unique {instrumentId : String} {order : Order}
    {first second : Trade} {served : Order × ℚ}
    (left : Executes instrumentId order first served)
    (right : Executes instrumentId order second served) :
    first = second := by
  have price : first.price = second.price :=
    Option.some.inj (left.1.symm.trans right.1)
  have one := left.2
  have other := right.2
  have instrument := one.instrument.trans other.instrument.symm
  have quantity := one.forQuantity.trans other.forQuantity.symm
  have aggressor := one.aggressor.trans other.aggressor.symm
  cases side : order.side with
  | buy =>
      rcases one.buying side with
        ⟨oneBuyOrder, oneBuyer, oneSellOrder, oneSeller⟩
      rcases other.buying side with ⟨buyOrder, buyer, sellOrder, seller⟩
      rcases first with ⟨⟩
      rcases second with ⟨⟩
      simp_all
  | sell =>
      rcases one.selling side with
        ⟨oneBuyOrder, oneBuyer, oneSellOrder, oneSeller⟩
      rcases other.selling side with ⟨buyOrder, buyer, sellOrder, seller⟩
      rcases first with ⟨⟩
      rcases second with ⟨⟩
      simp_all

theorem forall₂_executes_unique {instrumentId : String} {order : Order}
    {first second : List Trade} {served : List (Order × ℚ)}
    (left : List.Forall₂ (Executes instrumentId order) first served)
    (right : List.Forall₂ (Executes instrumentId order) second served) :
    first = second := by
  induction left generalizing second with
  | nil =>
      cases right
      rfl
  | cons head _ induction =>
      cases right with
      | cons otherHead otherTail =>
          rw [head.unique otherHead, induction otherTail]

/-- Every fill of the allocation is executed. -/
theorem exists_executes {instrumentId : String} {order : Order}
    {trades : List Trade} {served : List (Order × ℚ)}
    (executes : List.Forall₂ (Executes instrumentId order) trades served)
    {one : Order × ℚ} (member : one ∈ served) :
    ∃ trade ∈ trades, Executes instrumentId order trade one := by
  induction executes with
  | nil => exact absurd member List.not_mem_nil
  | cons head _ induction =>
      rcases List.mem_cons.mp member with rfl | later
      · exact ⟨_, List.mem_cons_self, head⟩
      · rcases induction later with ⟨trade, inTrades, executed⟩
        exact ⟨trade, List.mem_cons_of_mem _ inTrades, executed⟩

/-- Everything the matching of an accepted order does. -/
structure Served (order : Order) (start : BookState)
    (trades : List Trade) (matched : BookState) : Prop where
  sound : SoundlyMatched order start trades matched
  recorded : Recorded start trades matched
  fills : List.Forall₂ (Executes start.book.instrumentId order) trades
    (remainingFills order start)
  queue :
    matched.book.restingOn order.side.opposite =
      (start.book.restingOn order.side.opposite).filter
        fun other => ¬ other.IsFilled matched.heap

/--
The rule for a call which no guard stops: it returns, and what every trade
keeps holds before the remainder rests.
-/
theorem addOrder_kept {order : Order} {state : BookState}
    (invariant : BookInv state) (fillable : order.Fillable state.heap)
    (addable : Addable order state)
    (kept : List Trade → BookState → Prop) (holds : kept [] state)
    (keeps : ∀ trades reached (fill : Fill),
      BookShape reached.book → order.orderId ∉ reached.book.orderIds →
        kept trades reached → fill.Next order reached →
          kept (trades ++ [fill.trade]) (reached.afterFill order fill)) :
    ∃ trades matched,
      OrderBook.addOrder order state =
          .ok trades (matched.rest order) ∧
        Served order state trades matched ∧ kept trades matched := by
  have fresh := invariant.shape.not_mem_resting addable.absent
  have ends := addOrder_ends
    (fun trades reached =>
      Serving order state trades reached ∧
        Recorded state trades reached ∧ kept trades reached)
    invariant.shape
    (fun trades reached fill changes shape absent all next =>
      ⟨all.1.step changes next shape absent fresh, all.2.1.step,
        keeps trades reached fill shape absent all.2.2 next⟩)
    (fun _ => ⟨Serving.refl invariant fillable,
      Recorded.refl invariant.shape, holds⟩)
  cases evaluated : OrderBook.addOrder order state with
  | ok trades reached =>
      rcases ends.elim_ok evaluated with
        ⟨_, matched, rfl, changes, all, shape, absent, done⟩
      refine ⟨trades, matched, rfl, ?_, all.2.2⟩
      exact
        { sound :=
            { changes := changes
              invariant := ⟨shape, all.1.quantities⟩
              fillable := all.1.fillable
              absent := absent
              done := done }
          recorded := all.2.1
          fills := all.1.fills_of_done done shape
          queue := all.1.queue }
  | error exception reached =>
      rcases ends.elim_error evaluated with
        ⟨_, guarded⟩ | ⟨_, shape, rejected, trades, _, all⟩
      · exact absurd addable guarded
      · exact absurd rejected
          (not_tradeRejected ⟨shape, all.1.quantities⟩ all.1.fillable)

theorem addOrder_served {order : Order} {state : BookState}
    (invariant : BookInv state) (fillable : order.Fillable state.heap)
    (addable : Addable order state) :
    ∃ trades matched,
      OrderBook.addOrder order state =
          .ok trades (matched.rest order) ∧
        Served order state trades matched := by
  rcases addOrder_kept invariant fillable addable (fun _ _ => True) trivial
      fun _ _ _ _ _ _ _ => trivial with
    ⟨trades, matched, evaluates, served, _⟩
  exact ⟨trades, matched, evaluates, served⟩

/-- A cancel takes the order with the id out of the queues. -/
theorem Cancelled.restingOn {side : OrderSide} {order : Order}
    {state reached : BookState}
    (cancelled : Cancelled side order state reached)
    (shape : BookShape state.book) (which : OrderSide) :
    reached.book.restingOn which =
      (state.book.restingOn which).filter
        fun other => other.orderId ≠ order.orderId := by
  have removed := cancelled.removed
  have gone : ∀ other ∈ reached.book.resting,
      other.orderId ≠ order.orderId := fun other member =>
    removed.ne_of_mem shape member
  by_cases own : which = side
  · subst own
    rcases removed.queue with ⟨before, after, whole, rest⟩
    have kept : ((before ++ after).filter
        fun other => other.orderId ≠ order.orderId) = before ++ after := by
      rw [List.filter_eq_self]
      intro other member
      rw [← rest] at member
      simpa using gone other (OrderBook.mem_resting_of_mem member)
    rw [List.filter_append] at kept
    rw [rest, whole, List.filter_append, List.filter_cons_of_neg (by simp)]
    exact kept.symm
  · rcases OrderSide.eq_opposite_of_ne own with rfl
    have same := OrderBook.restingOn_congr removed.other
    rw [same]
    refine (List.filter_eq_self.mpr ?_).symm
    intro other member
    rw [← same] at member
    simpa using gone other (OrderBook.mem_resting_of_mem member)

end InternTradingGame
