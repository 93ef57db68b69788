import InternTradingGame.OrderBook.Loop
import Mathlib.Tactic.Ring

/-!
# The quantities of a book

With whole quantities, every resting order has something left and at most
what it was created with, and the total of a level is what its orders have
left.  A trade keeps these facts, and it is never refused by the constructor
of trades.
-/

namespace InternTradingGame

open Effects

/-! ## The quantity of one order -/

/-- The remaining quantity is a whole part of the quantity of the order. -/
structure Order.Fillable (order : Order) (heap : Heap) : Prop where
  nonnegative : 0 ≤ heap.remaining order
  bounded : heap.remaining order ≤ order.quantity
  whole : Whole (heap.remaining order)

namespace Order.Fillable

variable {order : Order} {heap changed : Heap}

theorem allocate (heap : Heap) (whole : Whole order.quantity) :
    order.Fillable (heap.allocate order) where
  nonnegative := by
    rw [Heap.remaining_allocate_self]
    exact order.quantity_positive.le
  bounded := le_of_eq (Heap.remaining_allocate_self ..)
  whole := by
    rw [Heap.remaining_allocate_self]
    exact whole

theorem congr (fillable : order.Fillable heap)
    (equal : changed.remaining order = heap.remaining order) :
    order.Fillable changed where
  nonnegative := equal ▸ fillable.nonnegative
  bounded := equal ▸ fillable.bounded
  whole := equal ▸ fillable.whole

theorem positive (fillable : order.Fillable heap)
    (unfilled : ¬ order.IsFilled heap) :
    0 < heap.remaining order :=
  lt_of_le_of_ne fillable.nonnegative (Ne.symm unfilled)

/-- An order is filled by no more than it has left. -/
theorem subtract {quantity : ℚ} (fillable : order.Fillable heap)
    (positive : 0 < quantity) (whole : Whole quantity)
    (available : quantity ≤ heap.remaining order)
    (filled :
      changed.remaining order = heap.remaining order - quantity) :
    order.Fillable changed where
  nonnegative := by
    rw [filled]
    exact sub_nonneg.mpr available
  bounded := by
    rw [filled]
    exact (sub_le_self _ positive.le).trans fillable.bounded
  whole := by
    rw [filled]
    exact fillable.whole.sub whole

end Order.Fillable

/-! ## The quantities of a book -/

/-- The total of a level is what its orders have left. -/
def LevelTotal (heap : Heap) (level : PriceLevel) : Prop :=
  level.totalQuantity = (level.orders.map heap.remaining).sum

theorem LevelTotal.congr {heap changed : Heap} {level : PriceLevel}
    (total : LevelTotal heap level)
    (agree : ∀ order ∈ level.orders,
      changed.remaining order = heap.remaining order) :
    LevelTotal changed level := by
  calc
    level.totalQuantity = (level.orders.map heap.remaining).sum := total
    _ = (level.orders.map changed.remaining).sum := by
      rw [List.map_congr_left agree]

/-- What holds of the quantities of a book. -/
structure BookQuantities (state : BookState) : Prop where
  totals : ∀ side, ∀ level ∈ state.book.levels side,
    LevelTotal state.heap level
  fillable : ∀ order ∈ state.book.resting, order.Fillable state.heap
  positive : ∀ order ∈ state.book.resting,
    0 < state.heap.remaining order

theorem BookQuantities.unfilled {state : BookState}
    (quantities : BookQuantities state) {order : Order}
    (member : order ∈ state.book.resting) :
    ¬ order.IsFilled state.heap :=
  (quantities.positive order member).ne'

/-- The representation invariant of a book. -/
structure BookInv (state : BookState) : Prop where
  shape : BookShape state.book
  quantities : BookQuantities state

namespace BookInv

theorem new (heap : Heap) (instrumentId : String) :
    BookInv ⟨heap, OrderBook.new instrumentId⟩ where
  shape := BookShape.new instrumentId
  quantities :=
    { totals := by
        intro side level member
        cases side <;> simp [OrderBook.new, OrderBook.levels] at member
      fillable := by
        simp [OrderBook.new, OrderBook.resting, OrderBook.restingOn,
          OrderBook.levels]
      positive := by
        simp [OrderBook.new, OrderBook.resting, OrderBook.restingOn,
          OrderBook.levels] }

/-- The quantities of orders which do not rest do not matter. -/
theorem congr_heap {heap changed : Heap} {book : OrderBook}
    (invariant : BookInv ⟨heap, book⟩)
    (agree : ∀ order ∈ book.resting,
      changed.remaining order = heap.remaining order) :
    BookInv ⟨changed, book⟩ where
  shape := invariant.shape
  quantities :=
    { totals := by
        intro side level member
        apply (invariant.quantities.totals side level member).congr
        intro order inLevel
        exact agree order
          (OrderBook.mem_resting_of_mem
            (OrderBook.mem_restingOn_iff.mpr ⟨level, member, inLevel⟩))
      fillable := by
        intro order member
        exact (invariant.quantities.fillable order member).congr
          (agree order member)
      positive := by
        intro order member
        rw [agree order member]
        exact invariant.quantities.positive order member }

end BookInv

/-! ## One trade -/

namespace Fill.Next

variable {fill : Fill} {order : Order} {state : BookState}

theorem matching_fillable (next : fill.Next order state)
    (quantities : BookQuantities state) :
    fill.matching.Fillable state.heap :=
  quantities.fillable fill.matching next.mem_resting

/-- No other resting order has the id of the resting order of the trade. -/
theorem not_mem_others (next : fill.Next order state)
    (shape : BookShape state.book) :
    fill.matching.orderId ∉
      (fill.queue ++ fill.deeper.flatMap PriceLevel.orders ++
        state.book.restingOn order.side).map Order.orderId := by
  have distinct :=
    ((@OrderBook.resting_perm _ order.side.opposite).map
      Order.orderId).nodup_iff.mp shape.distinct
  rw [next.restingOn, List.cons_append, List.map_cons,
    List.nodup_cons, OrderSide.opposite_opposite] at distinct
  exact distinct.1

theorem ne_of_mem_behind (next : fill.Next order state)
    (shape : BookShape state.book) {other : Order}
    (behind :
      other ∈ fill.queue ++ fill.deeper.flatMap PriceLevel.orders) :
    other.orderId ≠ fill.matching.orderId := by
  intro equal
  apply next.not_mem_others shape
  rw [← equal]
  exact List.mem_map_of_mem (List.mem_append_left _ behind)

theorem ne_of_mem_own (next : fill.Next order state)
    (shape : BookShape state.book) {other : Order}
    (own : other ∈ state.book.restingOn order.side) :
    other.orderId ≠ fill.matching.orderId := by
  intro equal
  apply next.not_mem_others shape
  rw [← equal]
  exact List.mem_map_of_mem (List.mem_append_right _ own)

theorem remaining_resting
    (shape : BookShape state.book)
    (absent : order.orderId ∉ state.book.orderIds) {other : Order}
    (member : other ∈ state.book.resting)
    (different : other.orderId ≠ fill.matching.orderId) :
    (state.afterFill order fill).heap.remaining other =
      state.heap.remaining other :=
  remaining_other (shape.not_mem_resting absent other member) different

theorem totals (next : fill.Next order state)
    (shape : BookShape state.book)
    (absent : order.orderId ∉ state.book.orderIds)
    (quantities : BookQuantities state) :
    ∀ side, ∀ level ∈ (state.afterFill order fill).book.levels side,
      LevelTotal (state.afterFill order fill).heap level := by
  have behindAgrees : ∀ other ∈
      fill.queue ++ fill.deeper.flatMap PriceLevel.orders,
      (state.afterFill order fill).heap.remaining other =
        state.heap.remaining other := by
    intro other behind
    apply remaining_resting shape absent _
      (next.ne_of_mem_behind shape behind)
    apply @OrderBook.mem_resting_of_mem _ order.side.opposite
    rw [next.restingOn]
    exact List.mem_cons_of_mem _ behind
  have queueSum :
      (fill.queue.map
          (state.afterFill order fill).heap.remaining).sum =
        (fill.queue.map state.heap.remaining).sum := by
    rw [List.map_congr_left fun other member =>
      behindAgrees other (List.mem_append_left _ member)]
  have best : fill.best.totalQuantity =
      state.heap.remaining fill.matching +
        (fill.queue.map state.heap.remaining).sum := by
    have total :=
      quantities.totals _ fill.best next.mem_levels
    rw [LevelTotal, next.head, List.map_cons, List.sum_cons] at total
    exact total
  have deeperTotal : ∀ level ∈ fill.deeper,
      LevelTotal (state.afterFill order fill).heap level := by
    intro level member
    apply LevelTotal.congr
    · apply quantities.totals order.side.opposite
      rw [next.side]
      exact List.mem_cons_of_mem _ member
    · intro other inLevel
      exact behindAgrees other
        (List.mem_append_right _
          (List.mem_flatMap.mpr ⟨level, member, inLevel⟩))
  intro side level member
  by_cases own : side = order.side
  · subst own
    rw [afterFill_levels] at member
    apply (quantities.totals _ level member).congr
    intro other inLevel
    have resting : other ∈ state.book.restingOn order.side :=
      OrderBook.mem_restingOn_iff.mpr ⟨level, member, inLevel⟩
    exact remaining_resting shape absent
      (OrderBook.mem_resting_of_mem resting)
      (next.ne_of_mem_own shape resting)
  · rcases OrderSide.eq_opposite_of_ne own with rfl
    by_cases completes : fill.Completes state.heap
    · rw [levels_of_completes completes] at member
      rcases List.mem_append.mp member with inShrunk | inDeeper
      · rcases PriceLevel.mem_listed_iff.mp inShrunk with ⟨rfl, _⟩
        change
          fill.best.totalQuantity - fill.trade.quantity -
              (state.heap.remaining fill.matching -
                fill.trade.quantity) =
            (fill.queue.map
              (state.afterFill order fill).heap.remaining).sum
        rw [queueSum, best]
        ring
      · exact deeperTotal level inDeeper
    · rw [levels_of_not_completes completes] at member
      rcases List.mem_cons.mp member with rfl | inDeeper
      · change
          fill.best.totalQuantity - fill.trade.quantity =
            (fill.best.orders.map
              (state.afterFill order fill).heap.remaining).sum
        rw [next.head, List.map_cons, List.sum_cons, queueSum, best,
          remaining_matching]
        ring
      · exact deeperTotal level inDeeper

/-- One trade keeps the quantities of the book. -/
theorem quantities (next : fill.Next order state)
    (shape : BookShape state.book)
    (absent : order.orderId ∉ state.book.orderIds)
    (quantities : BookQuantities state) :
    BookQuantities (state.afterFill order fill) where
  totals := next.totals shape absent quantities
  fillable := by
    intro other member
    have before : other ∈ state.book.resting :=
      next.resting_subset shape member
    by_cases isMatching : other.orderId = fill.matching.orderId
    · have equal : other = fill.matching :=
        shape.eq_of_orderId_eq before next.mem_resting isMatching
      rw [equal]
      exact (next.matching_fillable quantities).subtract
        fill.trade.quantity_positive fill.trade.quantity_whole
        next.quantity_le_matching remaining_matching
    · exact (quantities.fillable other before).congr
        (remaining_resting shape absent before isMatching)
  positive := by
    intro other member
    have before : other ∈ state.book.resting :=
      next.resting_subset shape member
    by_cases isMatching : other.orderId = fill.matching.orderId
    · obtain rfl : other = fill.matching :=
        shape.eq_of_orderId_eq before next.mem_resting isMatching
      have partly : ¬ fill.Completes state.heap := by
        intro completes
        exact (next.removed shape completes).ne_of_mem shape member rfl
      rw [remaining_matching]
      exact sub_pos.mpr
        (lt_of_le_of_ne next.quantity_le_matching (Ne.symm partly))
    · rw [remaining_resting shape absent before isMatching]
      exact quantities.positive other before

theorem order_fillable (next : fill.Next order state)
    (shape : BookShape state.book)
    (absent : order.orderId ∉ state.book.orderIds)
    (fillable : order.Fillable state.heap) :
    order.Fillable (state.afterFill order fill).heap :=
  fillable.subtract fill.trade.quantity_positive
    fill.trade.quantity_whole next.quantity_le_order
    (next.remaining_order shape absent)

end Fill.Next

/-- Every resting order has something left. -/
def BookState.Unspent (state : BookState) : Prop :=
  ∀ order ∈ state.book.resting, 0 < state.heap.remaining order

/-- The next trade of the loop would be one of a part of a contract. -/
structure Fractional (order : Order) (state : BookState)
    (matching : Order) : Prop where
  unfilled : ¬ order.IsFilled state.heap
  first : ∃ behind,
    state.book.restingOn order.side.opposite = matching :: behind
  accepted : ∃ limit, matching.price = some limit ∧ ¬ order.Refuses limit
  part : ¬ Whole
    (min (state.heap.remaining order) (state.heap.remaining matching))

theorem Fractional.rests {order matching : Order} {state : BookState}
    (fractional : Fractional order state matching) :
    matching ∈ state.book.resting := by
  rcases fractional.first with ⟨behind, first⟩
  apply @OrderBook.mem_resting_of_mem _ order.side.opposite
  rw [first]
  exact List.mem_cons_self

/-- Only a part of a contract is refused by the constructor of trades. -/
theorem TradeRejected.fractional {order : Order} {state : BookState}
    {exception : PyError} (rejected : TradeRejected order exception state)
    (shape : BookShape state.book) (unspent : state.Unspent)
    (own : 0 ≤ state.heap.remaining order) :
    ∃ matching, Fractional order state matching := by
  rcases rejected with
    ⟨best, deeper, matching, queue, unfilled, side, head, accepted, raised⟩
  have levelMember :
      best ∈ state.book.levels order.side.opposite := by
    rw [side]
    exact List.mem_cons_self
  have orderMember : matching ∈ best.orders := by
    rw [head]
    exact List.mem_cons_self
  have resting : matching ∈ state.book.resting :=
    OrderBook.mem_resting_of_mem
      (OrderBook.mem_restingOn_iff.mpr
        ⟨best, levelMember, orderMember⟩)
  have priced : matching.price = some best.price :=
    (shape.side _).ownPrice best levelMember matching orderMember
  refine ⟨matching, unfilled, ?_, ⟨_, priced, accepted⟩, ?_⟩
  · refine ⟨queue ++ deeper.flatMap PriceLevel.orders, ?_⟩
    rw [OrderBook.restingOn, side, List.flatMap_cons, head,
      List.cons_append]
  · intro whole
    have quantityPositive :
        0 < min (state.heap.remaining order)
          (state.heap.remaining matching) :=
      lt_min (lt_of_le_of_ne own (Ne.symm unfilled))
        (unspent matching resting)
    rcases OrderBook.exists_newTrade state.book order matching
        (matching.price_positive _ priced) quantityPositive whole with
      ⟨trade, created⟩
    rw [created] at raised
    cases raised

/-- With whole quantities every trade of the loop is accepted. -/
theorem not_tradeRejected {order : Order} {state : BookState}
    {exception : PyError} (invariant : BookInv state)
    (fillable : order.Fillable state.heap) :
    ¬ TradeRejected order exception state := by
  intro rejected
  rcases rejected.fractional invariant.shape
    invariant.quantities.positive fillable.nonnegative with
    ⟨matching, fractional⟩
  exact fractional.part
    (fillable.whole.min
      (invariant.quantities.fillable matching fractional.rests).whole)

end InternTradingGame
