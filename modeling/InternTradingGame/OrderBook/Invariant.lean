import InternTradingGame.OrderBook.Cancellation
import InternTradingGame.Library.Runs
import Mathlib.Data.List.Sort
import Mathlib.Data.List.Dedup

/-!
# The representation invariant over runs of a book

A run of a book is a sequence of `add_order` and `cancel_order` calls.  The
representation invariant holds after every call of every run, and with it
the reports of the book are what the resting orders say: `priceTable` is the
aggregated remaining quantity for each price, computed from the orders
alone.
-/

namespace InternTradingGame

open Effects

/-! ## Runs of a book -/

/-- A call of one of the two operations of a book. -/
inductive BookCall where
  | addOrder (order : Order)
  | cancelOrder (orderId : String)
deriving DecidableEq

/-- The order object has been constructed. -/
def BookState.withOrder (state : BookState) (order : Order) :
    BookState :=
  { state with heap := state.heap.allocate order }

namespace BookCall

/-- The state a call leaves.  An order is constructed just before its call. -/
def execute : BookCall → BookState → BookState
  | .addOrder order, state =>
      finalState (OrderBook.addOrder order (state.withOrder order))
  | .cancelOrder orderId, state =>
      finalState (OrderBook.cancelOrder orderId state)

/-- New orders have a whole quantity and an id which does not rest. -/
def Allowed : BookCall → BookState → Prop
  | .addOrder order, state =>
      Whole order.quantity ∧
        ∀ resting ∈ state.book.resting,
          resting.orderId ≠ order.orderId
  | .cancelOrder _, _ => True

end BookCall

instance (call : BookCall) (state : BookState) :
    Decidable (call.Allowed state) := by
  rcases call
  case addOrder order => exact inferInstanceAs (Decidable (_ ∧ _))
  case cancelOrder orderId => exact inferInstanceAs (Decidable True)

/-- One call. -/
abbrev BookStep : BookState → BookCall → BookState → Prop :=
  GuardedStep BookCall.Allowed BookCall.execute

/-- An empty book, before any order has been constructed. -/
def BookState.initial (instrumentId : String) : BookState where
  heap := Heap.empty
  book := OrderBook.new instrumentId

/-- Constructing an order does not touch the orders which rest. -/
theorem BookInv.allocate {state : BookState} {order : Order}
    (invariant : BookInv state)
    (fresh : ∀ resting ∈ state.book.resting,
      resting.orderId ≠ order.orderId) :
    BookInv (state.withOrder order) :=
  invariant.congr_heap fun resting member =>
    Heap.remaining_allocate_ne _ (fresh resting member)

/-- One call keeps the representation invariant. -/
theorem bookStep_keeps {state next : BookState} {call : BookCall}
    (step : BookStep state call next) (invariant : BookInv state) :
    BookInv next := by
  rcases step with ⟨allowed, rfl⟩
  cases call with
  | addOrder order =>
      have allocated := invariant.allocate allowed.2
      have fillable := Order.Fillable.allocate state.heap allowed.1
      have ends := addOrder_sound allocated fillable
      rw [BookCall.execute]
      cases evaluated :
          OrderBook.addOrder order (state.withOrder order) with
      | ok trades reached =>
          rcases ends.elim_ok evaluated with ⟨addable, matched, rfl, sound⟩
          exact sound.rest_keeps addable
      | error exception reached =>
          rcases ends.elim_error evaluated with ⟨rfl, _⟩
          exact allocated
  | cancelOrder orderId =>
      rw [BookCall.execute]
      rcases cancelOrder_cases invariant.shape orderId with
        ⟨side, order, reached, _, _, evaluates, cancelled⟩ |
          ⟨_, evaluates⟩
      · rw [evaluates, finalState_ok]
        exact cancelled.keeps invariant
      · rw [evaluates, finalState_ok]
        exact invariant

theorem BookInv.of_run {instrumentId : String} {calls : List BookCall}
    {state : BookState}
    (run : Run BookStep (BookState.initial instrumentId) calls state) :
    BookInv state :=
  run.invariant BookInv (BookInv.new _ _)
    fun _ _ _ invariant step => bookStep_keeps step invariant

/-! ## What the book reports -/

/-- The first price stands before the second or beside it. -/
def OrderSide.AtLeast (side : OrderSide) (first second : ℚ) : Prop :=
  ¬ side.Better second first

namespace OrderSide

instance (side : OrderSide) : DecidableRel side.Better := by
  intro first second
  rcases side
  case buy => exact inferInstanceAs (Decidable (second < first))
  case sell => exact inferInstanceAs (Decidable (first < second))

instance (side : OrderSide) : DecidableRel side.AtLeast :=
  fun first second =>
    inferInstanceAs (Decidable (¬ side.Better second first))

instance (side : OrderSide) : Std.Total side.AtLeast where
  total first second := by
    by_cases better : side.Better second first
    · exact Or.inr better.asymm
    · exact Or.inl better

theorem AtLeast.antisymm {side : OrderSide} {first second : ℚ}
    (left : side.AtLeast first second)
    (right : side.AtLeast second first) : first = second := by
  by_contra different
  rcases @better_or_better side _ _ different with better | better
  · exact right better
  · exact left better

instance (side : OrderSide) : IsTrans ℚ side.AtLeast where
  trans first second third left right := by
    cases side with
    | buy =>
        exact not_lt_of_ge
          (le_trans (le_of_not_gt right) (le_of_not_gt left))
    | sell =>
        exact not_lt_of_ge
          (le_trans (le_of_not_gt left) (le_of_not_gt right))

end OrderSide

/-- What the orders at a price have left. -/
def remainingAt (heap : Heap) (orders : List Order) (price : ℚ) : ℚ :=
  ((orders.filter fun order => order.price = some price).map
    heap.remaining).sum

/-- The prices of the orders, the best first, and what is left at each. -/
def priceTable (heap : Heap) (side : OrderSide)
    (orders : List Order) : List (ℚ × ℚ) :=
  ((orders.filterMap Order.price).dedup.insertionSort
      side.AtLeast).map
    fun price => (price, remainingAt heap orders price)

/-- The reports of a book agree with its resting orders. -/
structure ReportsExactly (state : BookState) : Prop where
  depth : ∀ count, state.book.depthSnapshot count =
    { bids :=
        (priceTable state.heap .buy (state.book.restingOn .buy)).take
          count
      asks :=
        (priceTable state.heap .sell (state.book.restingOn .sell)).take
          count }
  bestBid : state.book.bestBid =
    (priceTable state.heap .buy (state.book.restingOn .buy)).head?
  bestAsk : state.book.bestAsk =
    (priceTable state.heap .sell (state.book.restingOn .sell)).head?
  side : ∀ order ∈ state.book.resting, ∀ price,
    state.book.orderPriceMap.get? order.orderId = some price →
      state.book.sideOfPrice price = order.side
  found : ∀ orderId order,
    state.book.getOrder orderId = some order ↔
      order ∈ state.book.resting ∧ order.orderId = orderId
  cancelled : ∀ order ∈ state.book.resting, ∃ reached,
    OrderBook.cancelOrder order.orderId state =
        .ok (some order) reached ∧
      ∀ other, other ∈ reached.book.resting ↔
        other ∈ state.book.resting ∧ other ≠ order

section Reports

variable {state : BookState}

/-- The prices of the resting orders are the prices of the levels. -/
theorem prices_eq (shape : BookShape state.book) (side : OrderSide) :
    ((state.book.restingOn side).filterMap Order.price).dedup.insertionSort
        side.AtLeast =
      (state.book.levels side).map PriceLevel.price := by
  have sorted := List.pairwise_map.mpr (shape.side side).sorted
  apply List.Perm.eq_of_pairwise
  · intro first second _ _ left right
    exact @OrderSide.AtLeast.antisymm side _ _ left right
  · exact List.pairwise_insertionSort _ _
  · exact sorted.imp fun better => better.asymm
  · apply (List.perm_insertionSort _ _).trans
    apply (List.perm_ext_iff_of_nodup (List.nodup_dedup _)
      (sorted.imp OrderSide.Better.ne)).mpr
    intro price
    rw [List.mem_dedup, List.mem_filterMap, List.mem_map]
    constructor
    · rintro ⟨order, member, priced⟩
      rcases OrderBook.mem_restingOn_iff.mp member with
        ⟨level, levelMember, inLevel⟩
      have ownPrice :=
        (shape.side side).ownPrice level levelMember order inLevel
      exact ⟨level, levelMember,
        Option.some.inj (ownPrice.symm.trans priced)⟩
    · rintro ⟨level, levelMember, rfl⟩
      rcases List.exists_mem_of_ne_nil _
        ((shape.side side).occupied level levelMember) with
        ⟨order, inLevel⟩
      exact ⟨order,
        OrderBook.mem_restingOn_iff.mpr ⟨level, levelMember, inLevel⟩,
        (shape.side side).ownPrice level levelMember order inLevel⟩

/-- The orders at the price of a level are the orders of the level. -/
theorem filter_price (shape : BookShape state.book) {side : OrderSide}
    {level : PriceLevel} (member : level ∈ state.book.levels side) :
    ((state.book.restingOn side).filter
        fun order => order.price = some level.price) =
      level.orders := by
  rcases List.append_of_mem member with ⟨before, after, split⟩
  have sorted := (shape.side side).sorted
  rw [split] at sorted
  have parts := List.pairwise_append.mp sorted
  have elsewhere : ∀ others : List PriceLevel,
      (∀ other ∈ others,
        other ∈ state.book.levels side ∧ other.price ≠ level.price) →
      ((others.flatMap PriceLevel.orders).filter
        fun order => order.price = some level.price) = [] := by
    intro others apart
    rw [List.filter_eq_nil_iff]
    intro order inOthers equal
    rcases List.mem_flatMap.mp inOthers with ⟨other, otherMember, inOther⟩
    have ownPrice := (shape.side side).ownPrice other
      (apart other otherMember).1 order inOther
    rw [ownPrice] at equal
    exact (apart other otherMember).2 (by simpa using equal)
  rw [OrderBook.restingOn, split, List.flatMap_append,
    List.flatMap_cons, List.filter_append, List.filter_append,
    elsewhere before, elsewhere after, List.nil_append,
    List.append_nil, List.filter_eq_self]
  · intro order inLevel
    simpa using (shape.side side).ownPrice level member order inLevel
  · intro other inAfter
    refine ⟨?_, ((List.pairwise_cons.mp parts.2.1).1 other
      inAfter).ne.symm⟩
    rw [split]
    exact List.mem_append_right _ (List.mem_cons_of_mem _ inAfter)
  · intro other inBefore
    refine ⟨?_, (parts.2.2 other inBefore level
      List.mem_cons_self).ne⟩
    rw [split]
    exact List.mem_append_left _ inBefore

/-- The levels of a side are its price table. -/
theorem levels_eq_priceTable (invariant : BookInv state)
    (side : OrderSide) :
    ((state.book.levels side).map
        fun level => (level.price, level.totalQuantity)) =
      priceTable state.heap side (state.book.restingOn side) := by
  rw [priceTable, prices_eq invariant.shape, List.map_map]
  apply List.map_congr_left
  intro level member
  rw [invariant.quantities.totals side level member,
    Function.comp_apply, remainingAt,
    filter_price invariant.shape member]

theorem BookInv.reportsExactly (invariant : BookInv state) :
    ReportsExactly state where
  depth := by
    intro count
    rw [← levels_eq_priceTable invariant .buy,
      ← levels_eq_priceTable invariant .sell, ← List.map_take,
      ← List.map_take]
    rfl
  bestBid := by
    rw [← levels_eq_priceTable invariant .buy, List.head?_map]
    rfl
  bestAsk := by
    rw [← levels_eq_priceTable invariant .sell, List.head?_map]
    rfl
  side := by
    intro order member price stored
    rcases OrderBook.exists_side member with ⟨side, onSide⟩
    rcases (invariant.shape.prices _ _).mp stored with
      ⟨other, otherMember, sameId, priced⟩
    rcases invariant.shape.eq_of_orderId_eq otherMember member sameId with rfl
    rcases OrderBook.mem_restingOn_iff.mp onSide with
      ⟨level, levelMember, inLevel⟩
    rw [sideOfPrice_resting invariant.shape onSide priced]
    exact ((invariant.shape.side side).ownSide level levelMember other
      inLevel).symm
  found := getOrder_eq_some_iff invariant.shape
  cancelled := by
    intro order member
    rcases OrderBook.exists_side member with ⟨side, onSide⟩
    rcases cancelOrder_resting invariant.shape onSide with
      ⟨reached, evaluates, cancelled⟩
    refine ⟨reached, evaluates, ?_⟩
    intro other
    rw [cancelled.removed.mem_changed_iff invariant.shape]
    constructor
    · rintro ⟨otherMember, different⟩
      exact ⟨otherMember, fun equal => different (equal ▸ rfl)⟩
    · rintro ⟨otherMember, different⟩
      exact ⟨otherMember, fun equal => different
        (invariant.shape.eq_of_orderId_eq otherMember member equal)⟩

end Reports

/--
After every call of every run the representation invariant holds, and the
book reports exactly what its resting orders have left.
-/
theorem representation_invariant {instrumentId : String}
    {calls : List BookCall} {state : BookState}
    (run : Run BookStep (BookState.initial instrumentId) calls state) :
    BookInv state ∧ ReportsExactly state :=
  ⟨BookInv.of_run run, (BookInv.of_run run).reportsExactly⟩

/-- A sell order rests, and a buy order takes a part of it. -/
theorem representation_invariant_partial_fill :
    BookInv
        (replay BookCall.execute (BookState.initial "CALL")
          [.addOrder Sample.sellTen, .addOrder Sample.buyFour]) ∧
      ReportsExactly
        (replay BookCall.execute (BookState.initial "CALL")
          [.addOrder Sample.sellTen, .addOrder Sample.buyFour]) :=
  representation_invariant (run_replay (by decide +kernel))

end InternTradingGame
