import InternTradingGame.Library.Ladder
import InternTradingGame.OrderBook.Priority

/-!
# The displayed depth as a book of its own

The depth shows only prices and quantities.  Still it changes with every call
as a book of its own would: a new order sweeps the ladder of the other side
and joins that of its own side, and a cancel withdraws a quantity.  Whoever
follows these changes knows the depth, and can tell at which prices a new
order will be executed.
-/

namespace InternTradingGame

open Effects

/-! ## The depth -/

/-- What a level shows. -/
def PriceLevel.rung (level : PriceLevel) : ℚ × ℚ :=
  (level.price, level.totalQuantity)

namespace OrderBook

/-- What one side shows, the best price first. -/
def ladder (book : OrderBook) (side : OrderSide) : List (ℚ × ℚ) :=
  (book.levels side).map PriceLevel.rung

/-- What the whole book shows. -/
def depth (book : OrderBook) : Depth where
  bids := book.ladder .buy
  asks := book.ladder .sell

namespace Depth

/-- Nothing is displayed on either side. -/
def empty : Depth where
  bids := []
  asks := []

/-- The displayed volumes of one side, the best price first. -/
def side (depth : Depth) : OrderSide → List (ℚ × ℚ)
  | .buy => depth.bids
  | .sell => depth.asks

/-- The depth with another ladder on one side. -/
def setSide (depth : Depth) (side : OrderSide)
    (changed : List (ℚ × ℚ)) : Depth :=
  match side with
  | .buy => { depth with bids := changed }
  | .sell => { depth with asks := changed }

/-- The first levels of both sides. -/
def take (depth : Depth) (count : ℕ) : Depth where
  bids := depth.bids.take count
  asks := depth.asks.take count

@[simp]
theorem side_setSide (depth : Depth) (side : OrderSide)
    (changed : List (ℚ × ℚ)) :
    (depth.setSide side changed).side side = changed := by
  cases side <;> rfl

@[simp]
theorem side_setSide_opposite (depth : Depth) (side : OrderSide)
    (changed : List (ℚ × ℚ)) :
    (depth.setSide side.opposite changed).side side = depth.side side := by
  cases side <;> rfl

theorem side_opposite_setSide (depth : Depth) (side : OrderSide)
    (changed : List (ℚ × ℚ)) :
    (depth.setSide side changed).side side.opposite =
      depth.side side.opposite := by
  cases side <;> rfl

/-- A depth is known by its sides. -/
theorem ext_side {first second : Depth} (side : OrderSide)
    (own : first.side side = second.side side)
    (other : first.side side.opposite = second.side side.opposite) :
    first = second := by
  cases first with
  | mk firstBids firstAsks =>
      cases second with
      | mk secondBids secondAsks =>
          cases side with
          | buy => exact congr (congrArg Depth.mk own) other
          | sell => exact congr (congrArg Depth.mk other) own

end Depth

@[simp]
theorem side_depth (book : OrderBook) (side : OrderSide) :
    book.depth.side side = book.ladder side := by
  cases side <;> rfl

theorem depthSnapshot_eq (book : OrderBook) (count : ℕ) :
    book.depthSnapshot count = book.depth.take count := by
  simp only [depthSnapshot, Depth.take, depth, ladder, levels,
    List.map_take]
  rfl

end OrderBook

/-! ## The feed -/

/-- The limit of an order of the side accepts the price. -/
def OrderSide.accepts (side : OrderSide) (limit : Option ℚ) (price : ℚ) :
    Bool :=
  match limit with
  | none => true
  | some limit => ¬ side.Better price limit

theorem Order.accepts_iff (order : Order) (price : ℚ) :
    order.side.accepts order.price price = true ↔
      ¬ order.Refuses price := by
  rw [OrderSide.accepts.eq_def, Order.Refuses]
  cases order.price with
  | none => simp
  | some limit =>
      cases order.side with
      | buy => simp [OrderSide.Better]
      | sell => simp [OrderSide.Better]

theorem Order.accepts_eq_false {order : Order} {price : ℚ}
    (refuses : order.Refuses price) :
    order.side.accepts order.price price = false := by
  rw [← Bool.not_eq_true, Order.accepts_iff]
  exact not_not.mpr refuses

/-- What can change the depth: an order is placed, or one is withdrawn. -/
inductive FeedEntry where
  | place (side : OrderSide) (limit : Option ℚ) (quantity : ℚ)
  | withdraw (side : OrderSide) (price quantity : ℚ)
deriving DecidableEq

namespace FeedEntry

/-- The other side is swept, and what is left of a limit order joins. -/
def execute : FeedEntry → OrderBook.Depth → OrderBook.Depth
  | place side limit quantity, depth =>
      let opposite := depth.side side.opposite
      let accepts := side.accepts limit
      let left :=
        quantity - Ladder.total (Ladder.takings accepts quantity opposite)
      let swept :=
        depth.setSide side.opposite (Ladder.sweep accepts quantity opposite)
      match limit with
      | none => swept
      | some price =>
          if left = 0 then
            swept
          else
            swept.setSide side
              (Ladder.join side.Better price left (depth.side side))
  | withdraw side price quantity, depth =>
      depth.setSide side
        (Ladder.withdraw price quantity (depth.side side))

end FeedEntry

/-- What a call of the book publishes. -/
def BookCall.published : BookCall → BookState → List FeedEntry
  | .addOrder order, state =>
      if order.instrumentId = state.book.instrumentId then
        [.place order.side order.price order.quantity]
      else
        []
  | .cancelOrder orderId, state =>
      match state.book.getOrder orderId with
      | none => []
      | some order =>
          [.withdraw order.side order.limit (state.heap.remaining order)]

/-- What the calls of a run publish. -/
def feed (state : BookState) : List BookCall → List FeedEntry
  | [] => []
  | call :: calls =>
      call.published state ++ feed (call.execute state) calls

/-! ## Rungs -/

section Rungs

variable {level : PriceLevel} {heap : Heap}

/-- An occupied level shows something. -/
theorem LevelTotal.eq_zero_iff (total : LevelTotal heap level)
    (positive : ∀ order ∈ level.orders, 0 < heap.remaining order) :
    level.totalQuantity = 0 ↔ level.orders = [] := by
  rw [LevelTotal] at total
  constructor
  · intro zero
    cases orders : level.orders with
    | nil => rfl
    | cons first rest =>
        rw [orders] at total positive
        have head := positive first List.mem_cons_self
        have others : 0 ≤ (rest.map heap.remaining).sum := by
          apply List.sum_nonneg
          intro amount member
          rcases List.mem_map.mp member with ⟨order, inRest, rfl⟩
          exact (positive order (List.mem_cons_of_mem _ inRest)).le
        rw [List.map_cons, List.sum_cons, zero] at total
        linarith
  · intro empty
    rw [total, empty]
    rfl

/-- A level which has lost a quantity shows the rest of its rung. -/
theorem listed_rung (level : PriceLevel) (heap : Heap)
    {shrunk : PriceLevel} {amount : ℚ}
    (price : shrunk.price = level.price)
    (quantity : shrunk.totalQuantity = level.totalQuantity - amount)
    (total : LevelTotal heap shrunk)
    (positive : ∀ order ∈ shrunk.orders, 0 < heap.remaining order) :
    shrunk.listed.map PriceLevel.rung =
      Ladder.lower level.price level.totalQuantity amount := by
  have gone := total.eq_zero_iff positive
  rw [quantity, sub_eq_zero] at gone
  by_cases empty : shrunk.orders = []
  · rw [PriceLevel.listed_of_empty empty, Ladder.lower,
      if_pos (gone.mpr empty)]
    rfl
  · rw [PriceLevel.listed_of_occupied empty, Ladder.lower,
      if_neg (mt gone.mp empty), List.map_singleton, PriceLevel.rung,
      price, quantity]

end Rungs

/-! ## Matching sweeps the ladder -/

/-- What trades weigh, each by its price and its quantity. -/
def weighTrades (weight : ℚ → ℚ →+ ℚ) (trades : List Trade) : ℚ :=
  (trades.map fun trade => weight trade.price trade.quantity).sum

/-- What an order would take from the depth. -/
def Order.takes (order : Order) (state : BookState) : List (ℚ × ℚ) :=
  Ladder.takings (order.side.accepts order.price)
    (state.heap.remaining order)
    (state.book.ladder order.side.opposite)

/-- What an order would leave of the depth of the other side. -/
def Order.leaves (order : Order) (state : BookState) : List (ℚ × ℚ) :=
  Ladder.sweep (order.side.accepts order.price)
    (state.heap.remaining order)
    (state.book.ladder order.side.opposite)

/-- The loop has executed a part of what the order takes. -/
structure Sweeping (order : Order) (start : BookState)
    (trades : List Trade) (reached : BookState) : Prop where
  quantities : BookQuantities reached
  fillable : order.Fillable reached.heap
  leaves : order.leaves reached = order.leaves start
  takes : ∀ weight,
    Ladder.weigh weight (order.takes start) =
      weighTrades weight trades +
        Ladder.weigh weight (order.takes reached)

namespace Sweeping

variable {order : Order} {start reached : BookState}
  {trades : List Trade} {fill : Fill}

theorem refl (quantities : BookQuantities start)
    (fillable : order.Fillable start.heap) :
    Sweeping order start [] start where
  quantities := quantities
  fillable := fillable
  leaves := rfl
  takes := by
    intro weight
    exact (zero_add _).symm

/-- What the best level shows. -/
theorem best_total (next : fill.Next order reached)
    (quantities : BookQuantities reached) :
    fill.best.totalQuantity =
      reached.heap.remaining fill.matching +
        (fill.queue.map reached.heap.remaining).sum := by
  have total := quantities.totals _ fill.best next.mem_levels
  rw [LevelTotal, next.head, List.map_cons, List.sum_cons] at total
  exact total

theorem queue_positive (next : fill.Next order reached)
    (quantities : BookQuantities reached) :
    ∀ other ∈ fill.queue, 0 < reached.heap.remaining other := by
  intro other member
  apply quantities.positive
  apply @OrderBook.mem_resting_of_mem _ order.side.opposite
  rw [next.restingOn]
  exact List.mem_cons_of_mem _ (List.mem_append_left _ member)

/-- A trade cannot take more than the best level shows. -/
theorem quantity_le_best (next : fill.Next order reached)
    (quantities : BookQuantities reached) :
    fill.trade.quantity ≤ fill.best.totalQuantity := by
  have others : 0 ≤ (fill.queue.map reached.heap.remaining).sum := by
    apply List.sum_nonneg
    intro amount member
    rcases List.mem_map.mp member with ⟨other, queued, rfl⟩
    exact (queue_positive next quantities other queued).le
  rw [best_total next quantities]
  exact next.quantity_le_matching.trans (le_add_of_nonneg_right others)

/-- A trade lowers the best rung. -/
theorem ladder_afterFill (next : fill.Next order reached)
    (quantities : BookQuantities reached) :
    (reached.afterFill order fill).book.ladder order.side.opposite =
      Ladder.lower fill.best.price fill.best.totalQuantity
          fill.trade.quantity ++
        fill.deeper.map PriceLevel.rung := by
  have total := best_total next quantities
  by_cases completes : fill.Completes reached.heap
  · rw [OrderBook.ladder, Fill.Next.levels_of_completes completes,
      List.map_append, listed_rung fill.best reached.heap]
    · rfl
    · show fill.best.totalQuantity - fill.trade.quantity -
        (reached.heap.remaining fill.matching - fill.trade.quantity) = _
      rw [show reached.heap.remaining fill.matching = _ from completes,
        sub_self, sub_zero]
    · show fill.best.totalQuantity - fill.trade.quantity -
          (reached.heap.remaining fill.matching - fill.trade.quantity) =
        (fill.queue.map reached.heap.remaining).sum
      rw [total]
      ring
    · exact queue_positive next quantities
  · have fewer : fill.trade.quantity <
        reached.heap.remaining fill.matching :=
      lt_of_le_of_ne next.quantity_le_matching (Ne.symm completes)
    have others : 0 ≤ (fill.queue.map reached.heap.remaining).sum := by
      apply List.sum_nonneg
      intro amount member
      rcases List.mem_map.mp member with ⟨other, queued, rfl⟩
      exact (queue_positive next quantities other queued).le
    rw [OrderBook.ladder, Fill.Next.levels_of_not_completes completes,
      Ladder.lower, if_neg]
    · rfl
    · rw [total]
      exact (fewer.trans_le (le_add_of_nonneg_right others)).ne'

theorem step (sweeping : Sweeping order start trades reached)
    (next : fill.Next order reached) (shape : BookShape reached.book)
    (absent : order.orderId ∉ reached.book.orderIds) :
    Sweeping order start (trades ++ [fill.trade])
      (reached.afterFill order fill) := by
  have quantities := sweeping.quantities
  have accepted := (order.accepts_iff fill.best.price).mpr next.accepted
  have ladder : reached.book.ladder order.side.opposite =
      (fill.best.price, fill.best.totalQuantity) ::
        fill.deeper.map PriceLevel.rung := by
    rw [OrderBook.ladder, next.side]
    rfl
  constructor
  · exact next.quantities shape absent quantities
  · exact next.order_fillable shape absent sweeping.fillable
  · rw [← sweeping.leaves, Order.leaves, Order.leaves,
      next.remaining_order shape absent, ladder_afterFill next quantities,
      ladder]
    exact Ladder.sweep_lower accepted next.unfilled
      next.quantity_le_order (quantity_le_best next quantities)
  · intro weight
    have atPrice : fill.trade.price = fill.best.price :=
      next.tradeOf.atPrice
    rw [sweeping.takes, Order.takes, Order.takes,
      next.remaining_order shape absent, ladder_afterFill next quantities,
      ladder, Ladder.weigh_takings_lower weight accepted next.unfilled
        next.quantity_le_order (quantity_le_best next quantities),
      weighTrades, weighTrades, List.map_append, List.sum_append,
      add_assoc, List.map_singleton, List.sum_singleton, atPrice]

/-- Nothing is taken once the loop has ended. -/
theorem refused_of_done (done : MatchingDone order reached) :
    reached.heap.remaining order = 0 ∨
      ∀ rung ∈ (reached.book.ladder order.side.opposite).head?,
        order.side.accepts order.price rung.1 = false := by
  rcases done with filled | empty | ⟨best, deeper, side, refuses⟩
  · exact Or.inl filled
  · right
    rw [OrderBook.ladder, empty]
    exact nofun
  · right
    rw [OrderBook.ladder, side]
    intro rung isHead
    rcases Option.some.inj isHead with rfl
    exact Order.accepts_eq_false refuses

theorem ladder_of_done (sweeping : Sweeping order start trades reached)
    (done : MatchingDone order reached) :
    reached.book.ladder order.side.opposite = order.leaves start := by
  rw [← sweeping.leaves]
  exact (Ladder.sweep_of_refused (refused_of_done done)).symm

theorem weighTrades_of_done
    (sweeping : Sweeping order start trades reached)
    (done : MatchingDone order reached) (weight : ℚ → ℚ →+ ℚ) :
    weighTrades weight trades = Ladder.weigh weight (order.takes start) := by
  rw [sweeping.takes weight, Order.takes,
    Ladder.takings_of_refused (refused_of_done done)]
  exact (add_zero _).symm

end Sweeping

/-! ## Resting and cancelling -/

section Rest

variable {order : Order} {state reached : BookState} {price : ℚ}

/-- What is left of a limit order joins its ladder. -/
theorem ladder_inserted (shape : BookShape state.book) :
    (state.inserted order price).book.ladder order.side =
      Ladder.join order.side.Better price (state.heap.remaining order)
        (state.book.ladder order.side) := by
  rcases @insertIntoLevels_joined _ order price _ state.heap
      (shape.side order.side) with
    ⟨before, level, after, joined, levels⟩
  have ahead : ∀ rung ∈ before.map PriceLevel.rung,
      rung.1 ≠ price ∧ ¬ order.side.Better price rung.1 := by
    intro rung member
    rcases List.mem_map.mp member with ⟨near, listed, rfl⟩
    have better := joined.better near listed
    exact ⟨better.ne, better.asymm⟩
  have behind : ∀ rung ∈ after.map PriceLevel.rung,
      rung.1 ≠ price ∧ order.side.Better price rung.1 := by
    intro rung member
    rcases List.mem_map.mp member with ⟨far, listed, rfl⟩
    have worse := joined.worse far listed
    exact ⟨worse.ne.symm, worse⟩
  have changed : (state.inserted order price).book.ladder order.side =
      before.map PriceLevel.rung ++
        (price, level.totalQuantity + state.heap.remaining order) ::
          after.map PriceLevel.rung := by
    rw [OrderBook.ladder, inserted_levels, levels, List.map_append,
      List.map_cons]
    show _ ++ (level.price, _) :: _ = _
    rw [joined.atPrice]
    rfl
  rw [changed, OrderBook.ladder, joined.split, List.map_append,
    List.map_append]
  by_cases empty : level.orders = []
  · rcases joined.origin with listed | new
    · exact absurd empty ((shape.side order.side).occupied level listed)
    · rw [PriceLevel.listed_of_empty empty, List.map_nil,
        List.nil_append, Ladder.join_new ahead behind, new]
      show _ ++ (price, 0 + _) :: _ = _
      rw [zero_add]
  · rw [PriceLevel.listed_of_occupied empty]
    show _ =
      Ladder.join _ _ _ (_ ++ (level.price, level.totalQuantity) :: _)
    rw [joined.atPrice]
    exact (Ladder.join_listed ahead).symm

theorem ladder_inserted_opposite :
    (state.inserted order price).book.ladder order.side.opposite =
      state.book.ladder order.side.opposite :=
  congrArg (List.map PriceLevel.rung) inserted_levels_opposite

/-- A cancel withdraws what is left of the order. -/
theorem ladder_takeOut (invariant : BookInv state) {side : OrderSide}
    (member : order ∈ state.book.restingOn side) :
    (state.book.takeOut state.heap side order).ladder side =
      Ladder.withdraw order.limit (state.heap.remaining order)
        (state.book.ladder side) := by
  rcases exists_level_split invariant.shape member with
    ⟨before, level, after, earlier, later, split, notBefore, notAfter,
      priced, orders, missed⟩
  have inLevel : order ∈ level.orders := by
    rw [orders]
    exact List.mem_append_right _ List.mem_cons_self
  have listed : level ∈ state.book.levels side := by
    rw [split]
    exact List.mem_append_right _ List.mem_cons_self
  have limit : order.limit = level.price := by
    rw [Order.limit, priced]
    rfl
  have positive : ∀ other ∈ level.orders,
      0 < state.heap.remaining other := by
    intro other inOrders
    exact invariant.quantities.positive other
      (OrderBook.mem_resting_of_mem
        (OrderBook.mem_restingOn_iff.mpr ⟨level, listed, inOrders⟩))
  have shrunk := takeOut_level state.heap orders missed
  have total := invariant.quantities.totals side level listed
  rw [LevelTotal, orders, List.map_append, List.map_cons,
    List.sum_append, List.sum_cons] at total
  have ahead : ∀ rung ∈ before.map PriceLevel.rung,
      rung.1 ≠ level.price := by
    intro rung isBefore
    rcases List.mem_map.mp isBefore with ⟨near, inBefore, rfl⟩
    exact notBefore near inBefore
  have lowered : (level.takeOut state.heap order).listed.map
        PriceLevel.rung =
      Ladder.lower level.price level.totalQuantity
        (state.heap.remaining order) := by
    apply listed_rung level state.heap
    · rfl
    · rfl
    · rw [shrunk]
      show level.totalQuantity - _ = ((earlier ++ later).map _).sum
      rw [total, List.map_append, List.sum_append]
      ring
    · intro other remains
      apply positive
      rw [shrunk] at remains
      rw [orders]
      rcases List.mem_append.mp remains with isEarlier | isLater
      · exact List.mem_append_left _ isEarlier
      · exact List.mem_append_right _ (List.mem_cons_of_mem _ isLater)
  rw [OrderBook.ladder, takeOut_levels state.heap invariant.shape split
      notBefore notAfter priced inLevel,
    List.map_append, List.map_append, lowered, OrderBook.ladder, split,
    List.map_append, List.map_cons, limit]
  exact (Ladder.withdraw_listed ahead).symm

theorem ladder_takeOut_opposite (heap : Heap) (side : OrderSide) :
    (state.book.takeOut heap side order).ladder side.opposite =
      state.book.ladder side.opposite := by
  cases side <;> rfl

end Rest

/-! ## One call -/

section Calls

variable {order : Order} {state matched : BookState}
  {trades : List Trade}

/-- An order which passes the guards sweeps the other side. -/
theorem addOrder_sweeps (invariant : BookInv state)
    (fillable : order.Fillable state.heap)
    (addable : Addable order state) :
    ∃ trades matched,
      OrderBook.addOrder order state =
          .ok trades (matched.rest order) ∧
        Matched order state trades matched ∧
        Sweeping order state trades matched ∧
        BookShape matched.book ∧ MatchingDone order matched := by
  have ends := addOrder_ends (Sweeping order state) invariant.shape
    (fun trades reached fill _ shape absent sweeping next =>
      sweeping.step next shape absent)
    (fun _ => Sweeping.refl invariant.quantities fillable)
  cases evaluated : OrderBook.addOrder order state with
  | ok trades reached =>
      rcases ends.elim_ok evaluated with
        ⟨_, matched, rfl, changes, sweeping, shape, _, done⟩
      exact ⟨trades, matched, rfl, changes, sweeping, shape, done⟩
  | error exception reached =>
      rcases ends.elim_error evaluated with
        ⟨_, guarded⟩ | ⟨_, shape, rejected, trades, _, sweeping⟩
      · exact absurd addable guarded
      · exact absurd rejected
          (not_tradeRejected ⟨shape, sweeping.quantities⟩
            sweeping.fillable)

/-- All trades of the loop are trades of the order. -/
theorem Matched.tradedQuantity_order
    (changes : Matched order state trades matched) :
    tradedQuantity order.orderId trades =
      (trades.map Trade.quantity).sum := by
  have all : (trades.filter fun trade => trade.Names order.orderId) =
      trades := by
    apply List.filter_eq_self.mpr
    intro trade member
    rcases changes.parties trade member with
      ⟨matching, _, price, _, _, tradeOf⟩
    exact decide_eq_true ((tradeOf.names_iff _).mpr (Or.inl rfl))
  rw [tradedQuantity, all]

/-- What an order has left when it has swept the other side. -/
theorem Sweeping.remaining
    (sweeping : Sweeping order state trades matched)
    (changes : Matched order state trades matched)
    (done : MatchingDone order matched) :
    matched.heap.remaining order =
      state.heap.remaining order - Ladder.total (order.takes state) := by
  rw [Ladder.total_eq_weigh, ← sweeping.weighTrades_of_done done,
    Heap.remaining, changes.accounts, changes.tradedQuantity_order]
  rfl

/-- The depth changes as an entry of the feed says. -/
theorem Sweeping.depth
    (sweeping : Sweeping order state trades matched)
    (changes : Matched order state trades matched)
    (shape : BookShape matched.book)
    (done : MatchingDone order matched) :
    (matched.rest order).book.depth =
      (FeedEntry.place order.side order.price
        (state.heap.remaining order)).execute state.book.depth := by
  have own : matched.book.ladder order.side =
      state.book.ladder order.side :=
    congrArg (List.map PriceLevel.rung) changes.own
  have other := sweeping.ladder_of_done done
  have left := sweeping.remaining changes done
  rw [Order.takes] at left
  have unrested :
      matched.book.depth =
        state.book.depth.setSide order.side.opposite
          (order.leaves state) := by
    apply OrderBook.Depth.ext_side order.side
    · rw [OrderBook.Depth.side_setSide_opposite, OrderBook.side_depth,
        OrderBook.side_depth, own]
    · rw [OrderBook.Depth.side_setSide, OrderBook.side_depth, other]
  rw [FeedEntry.execute.eq_def]
  simp only [OrderBook.side_depth, ← left]
  rw [BookState.rest]
  cases priced : order.price with
  | none =>
      rw [Order.leaves, priced] at unrested
      exact unrested
  | some price =>
      rw [Order.leaves, priced] at unrested
      dsimp only
      by_cases filled : matched.heap.remaining order = 0
      · rw [if_pos filled, if_pos (show order.IsFilled _ from filled)]
        exact unrested
      · rw [if_neg filled, if_neg (show ¬ order.IsFilled _ from filled),
          ← unrested]
        apply OrderBook.Depth.ext_side order.side
        · rw [OrderBook.side_depth, ladder_inserted shape,
            OrderBook.Depth.side_setSide, own]
        · rw [OrderBook.side_depth, ladder_inserted_opposite,
            OrderBook.Depth.side_opposite_setSide, OrderBook.side_depth]

theorem Addable.withOrder (instrument : order.instrumentId =
      state.book.instrumentId) (shape : BookShape state.book)
    (fresh : ∀ resting ∈ state.book.resting,
      resting.orderId ≠ order.orderId) :
    Addable order (state.withOrder order) where
  instrument := instrument
  absent := by
    intro present
    rcases (shape.ids _).mp present with ⟨other, member, equal⟩
    exact fresh other member equal

/-- A call changes the depth by what it publishes. -/
theorem bookStep_depth {next : BookState} {call : BookCall}
    (step : BookStep state call next) (invariant : BookInv state) :
    next.book.depth =
      (call.published state).foldl (fun depth entry => entry.execute depth)
        state.book.depth := by
  rcases step with ⟨allowed, rfl⟩
  cases call with
  | addOrder order =>
      have allocated := invariant.allocate allowed.2
      have fillable := Order.Fillable.allocate state.heap allowed.1
      rw [BookCall.execute, BookCall.published]
      by_cases instrument :
          order.instrumentId = state.book.instrumentId
      · rcases addOrder_sweeps allocated fillable
            (Addable.withOrder instrument invariant.shape allowed.2) with
          ⟨trades, matched, evaluates, changes, sweeping, shape, done⟩
        rw [if_pos instrument, evaluates, finalState_ok,
          sweeping.depth changes shape done,
          show (state.withOrder order).heap.remaining order =
            order.quantity from Heap.remaining_allocate_self ..]
        rfl
      · rw [if_neg instrument]
        have ends := addOrder_sound allocated fillable
        cases evaluated :
            OrderBook.addOrder order (state.withOrder order) with
        | ok trades reached =>
            exact absurd (ends.elim_ok evaluated).1.instrument instrument
        | error exception reached =>
            rcases ends.elim_error evaluated with ⟨rfl, _⟩
            rfl
  | cancelOrder orderId =>
      rw [BookCall.execute, BookCall.published]
      rcases cancelOrder_cases invariant.shape orderId with
        ⟨side, order, reached, member, sameId, evaluates, _⟩ |
          ⟨missing, evaluates⟩
      · have found := (getOrder_eq_some_iff invariant.shape orderId
          order).mpr ⟨OrderBook.mem_resting_of_mem member, sameId⟩
        rcases OrderBook.mem_restingOn_iff.mp member with
          ⟨level, listed, inLevel⟩
        have ownSide := (invariant.shape.side side).ownSide level listed
          order inLevel
        rw [found, ← sameId,
          cancelOrder_takesOut invariant.shape member, finalState_ok]
        apply OrderBook.Depth.ext_side side
        · rw [OrderBook.side_depth, ladder_takeOut invariant member,
            ← ownSide]
          show _ = ((state.book.depth.setSide _ _).side _)
          rw [OrderBook.Depth.side_setSide, OrderBook.side_depth]
        · rw [OrderBook.side_depth, ladder_takeOut_opposite, ← ownSide]
          show _ = ((state.book.depth.setSide _ _).side _)
          rw [OrderBook.Depth.side_opposite_setSide, OrderBook.side_depth]
      · have absent : state.book.getOrder orderId = none := by
          cases found : state.book.getOrder orderId with
          | none => rfl
          | some order =>
              rcases (getOrder_eq_some_iff invariant.shape orderId
                order).mp found with ⟨member, sameId⟩
              exact absurd sameId (missing order member)
        rw [absent, evaluates, finalState_ok]
        rfl

end Calls

/-! ## Runs -/

theorem feed_append (state : BookState) (earlier later : List BookCall) :
    feed state (earlier ++ later) =
      feed state earlier ++
        feed (replay BookCall.execute state earlier) later := by
  induction earlier generalizing state with
  | nil => rfl
  | cons call calls induction =>
      rw [List.cons_append, feed, feed, induction, List.append_assoc]
      rfl

/--
Whoever follows the feed from the opening of the book knows its depth: every
snapshot shows the first levels of what the entries of the feed leave.  The
feed says what is placed and what is withdrawn, and the listener works out
what trades take.  The runs are those of whole quantities in which no order
is added under the id of a resting one.
-/
theorem depth_of_feed {instrumentId : String} {calls : List BookCall}
    {state : BookState}
    (run : Run BookStep (BookState.initial instrumentId) calls state)
    (count : ℕ) :
    state.book.depthSnapshot count =
      ((feed (BookState.initial instrumentId) calls).foldl
        (fun depth entry => entry.execute depth)
          OrderBook.Depth.empty).take count := by
  rw [OrderBook.depthSnapshot_eq]
  congr 1
  apply run.induction_history (fun history reached =>
    reached.book.depth =
      (feed (BookState.initial instrumentId) history).foldl
        (fun depth entry => entry.execute depth) OrderBook.Depth.empty)
  · rfl
  · intro history before call next prior shown step
    have reached := prior.eq_replay
    rw [bookStep_depth step (BookInv.of_run prior), shown, feed_append,
      List.foldl_append, ← reached]
    show _ = (call.published before ++ []).foldl _ _
    rw [List.append_nil]

/-- An offer is placed, met in part, and withdrawn. -/
theorem depth_of_feed_withdrawn :
    (replay BookCall.execute (BookState.initial "CALL")
        [.addOrder Sample.sellTen, .addOrder Sample.buyFour,
          .cancelOrder "SELL"]).book.depthSnapshot 5 =
      ((feed (BookState.initial "CALL")
          [.addOrder Sample.sellTen, .addOrder Sample.buyFour,
            .cancelOrder "SELL"]).foldl
        (fun depth entry => entry.execute depth)
          OrderBook.Depth.empty).take 5 :=
  depth_of_feed (run_replay (by decide +kernel)) 5

/-! ## Execution against the depth -/

/-- What is traded at a price. -/
def tradedAt (price : ℚ) (trades : List Trade) : ℚ :=
  ((trades.filter fun trade => trade.price = price).map
    Trade.quantity).sum

theorem tradedAt_eq_weighTrades (price : ℚ) (trades : List Trade) :
    tradedAt price trades =
      weighTrades
        (fun other => if other = price then .id ℚ else 0) trades := by
  induction trades with
  | nil => rfl
  | cons trade rest induction =>
      rw [weighTrades, List.map_cons, List.sum_cons]
      rw [weighTrades] at induction
      rw [← induction]
      by_cases here : trade.price = price
      · simp [tradedAt, here]
      · simp [tradedAt, here]

/-- The trades of an order are those the depth has announced. -/
structure WalksDepth (order : Order) (book : OrderBook)
    (trades : List Trade) : Prop where
  volume : ∀ price,
    tradedAt price trades =
      Ladder.amountAt price
        (Ladder.takings (order.side.accepts order.price) order.quantity
          (book.ladder order.side.opposite))
  total :
    (trades.map Trade.quantity).sum =
      min order.quantity
        (Ladder.total ((book.ladder order.side.opposite).takeWhile
          fun rung => order.side.accepts order.price rung.1))
  cost :
    (trades.map fun trade => trade.price * trade.quantity).sum =
      ((Ladder.takings (order.side.accepts order.price) order.quantity
        (book.ladder order.side.opposite)).map
          fun taken => taken.1 * taken.2).sum
  covered : ∀ count,
    order.quantity ≤
        Ladder.total
          (((book.depthSnapshot count).side order.side.opposite).takeWhile
            fun rung => order.side.accepts order.price rung.1) →
      (trades.map Trade.quantity).sum = order.quantity ∧
        ∀ price,
          tradedAt price trades =
            Ladder.amountAt price
              (Ladder.takings (order.side.accepts order.price)
                order.quantity
                ((book.depthSnapshot count).side order.side.opposite))

section Execution

variable {order : Order} {state matched : BookState}
  {trades : List Trade}

/-- Every rung shows something. -/
theorem BookInv.rung_positive (invariant : BookInv state)
    (side : OrderSide) :
    ∀ rung ∈ state.book.ladder side, 0 < rung.2 := by
  intro rung member
  rcases List.mem_map.mp member with ⟨level, listed, rfl⟩
  have total := invariant.quantities.totals side level listed
  have positive : ∀ order ∈ level.orders,
      0 < state.heap.remaining order := by
    intro order inLevel
    exact invariant.quantities.positive order
      (OrderBook.mem_resting_of_mem
        (OrderBook.mem_restingOn_iff.mpr ⟨level, listed, inLevel⟩))
  have shown : level.totalQuantity ≠ 0 :=
    mt (total.eq_zero_iff positive).mp
      ((invariant.shape.side side).occupied level listed)
  apply lt_of_le_of_ne ?_ shown.symm
  show 0 ≤ level.totalQuantity
  rw [show level.totalQuantity = _ from total]
  apply List.sum_nonneg
  intro amount isAmount
  rcases List.mem_map.mp isAmount with ⟨order, inLevel, rfl⟩
  exact (positive order inLevel).le

theorem OrderBook.depthSnapshot_side (book : OrderBook) (count : ℕ)
    (side : OrderSide) :
    (book.depthSnapshot count).side side = (book.ladder side).take count := by
  rw [depthSnapshot_eq]
  cases side <;> rfl

theorem Sweeping.walksDepth
    (sweeping : Sweeping order (state.withOrder order) trades matched)
    (done : MatchingDone order matched) (invariant : BookInv state) :
    WalksDepth order state.book trades := by
  have demand : (state.withOrder order).heap.remaining order =
      order.quantity := Heap.remaining_allocate_self ..
  have weighed : ∀ weight, weighTrades weight trades =
      Ladder.weigh weight
        (Ladder.takings (order.side.accepts order.price) order.quantity
          (state.book.ladder order.side.opposite)) := by
    intro weight
    rw [sweeping.weighTrades_of_done done, Order.takes, demand]
    rfl
  have volume : ∀ price, tradedAt price trades =
      Ladder.amountAt price
        (Ladder.takings (order.side.accepts order.price) order.quantity
          (state.book.ladder order.side.opposite)) := by
    intro price
    rw [tradedAt_eq_weighTrades, weighed, Ladder.amountAt_eq_weigh]
  have whole : (trades.map Trade.quantity).sum =
      Ladder.total
        (Ladder.takings (order.side.accepts order.price) order.quantity
          (state.book.ladder order.side.opposite)) := by
    rw [Ladder.total_eq_weigh, ← weighed]
    rfl
  have nonnegative : 0 ≤ order.quantity := order.quantity_positive.le
  have positive := invariant.rung_positive order.side.opposite
  constructor
  · exact volume
  · rw [whole, Ladder.total_takings positive nonnegative]
  · exact weighed AddMonoidHom.mulLeft
  · intro count covered
    rw [OrderBook.depthSnapshot_side] at covered ⊢
    have front := Ladder.takings_append
      ((state.book.ladder order.side.opposite).drop count) nonnegative
      covered
    rw [List.take_append_drop] at front
    constructor
    · rw [whole, front, Ladder.total_takings ?_ nonnegative,
        min_eq_left covered]
      intro rung member
      exact positive rung (List.mem_of_mem_take member)
    · intro price
      rw [volume, front]

end Execution

/--
In every reachable book a new order of a whole quantity is executed against
the displayed depth: at every price what the ladder announces, as much in
all as the acceptable rungs show, and a snapshot which covers the order
tells all of it.
-/
theorem addOrder_walksDepth {instrumentId : String}
    {calls : List BookCall} {state : BookState}
    (run : Run BookStep (BookState.initial instrumentId) calls state)
    (order : Order)
    (instrument : order.instrumentId = state.book.instrumentId)
    (whole : Whole order.quantity)
    (fresh : ∀ resting ∈ state.book.resting,
      resting.orderId ≠ order.orderId) :
    ∃ trades reached,
      OrderBook.addOrder order (state.withOrder order) =
          .ok trades reached ∧
        WalksDepth order state.book trades := by
  have invariant := BookInv.of_run run
  have fillable := Order.Fillable.allocate state.heap whole
  rcases addOrder_sweeps (invariant.allocate fresh) fillable
      (Addable.withOrder instrument invariant.shape fresh) with
    ⟨trades, matched, evaluates, _, sweeping, _, done⟩
  exact ⟨trades, _, evaluates, sweeping.walksDepth done invariant⟩

/-- A purchase at any price is met by what is left of an offer. -/
theorem addOrder_walksDepth_market :
    ∃ trades reached,
      OrderBook.addOrder Sample.marketBuy
          ((replay BookCall.execute (BookState.initial "CALL")
            [.addOrder Sample.sellTen, .addOrder Sample.buyFour]).withOrder
              Sample.marketBuy) =
          .ok trades reached ∧
        WalksDepth Sample.marketBuy
          (replay BookCall.execute (BookState.initial "CALL")
            [.addOrder Sample.sellTen, .addOrder Sample.buyFour]).book
          trades :=
  addOrder_walksDepth (run_replay (by decide +kernel)) Sample.marketBuy
    (by decide +kernel) (by decide +kernel) (by decide +kernel)

end InternTradingGame
