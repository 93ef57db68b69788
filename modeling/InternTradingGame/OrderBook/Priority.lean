import InternTradingGame.OrderBook.Invariant
import InternTradingGame.Library.Greedy

/-!
# Price-time priority

The reference sorts the resting orders of the other side by price and then
by the call which placed them, keeps those whose price the incoming order
accepts, and serves them greedily.  The code has no arrival times: it relies
on the order of its levels and queues.  In every reachable book that order
is the order of the reference, and matching an order yields exactly the
greedy allocation.
-/

namespace InternTradingGame

open Effects

/-! ## Arrival -/

/-- The call places an order with the id. -/
def BookCall.Places (orderId : String) : BookCall → Prop
  | .addOrder order => order.orderId = orderId
  | .cancelOrder _ => False

instance (orderId : String) : DecidablePred (BookCall.Places orderId) := by
  intro call
  rcases call
  case addOrder order => exact inferInstanceAs (Decidable (_ = _))
  case cancelOrder other => exact inferInstanceAs (Decidable False)

/-- The number of the last call which placed the id, from one on. -/
def arrival (calls : List BookCall) (orderId : String) : Nat :=
  calls.length -
    calls.reverse.findIdx fun call => call.Places orderId

section Arrival

variable (calls : List BookCall) {call : BookCall} {orderId : String}

theorem arrival_le_length : arrival calls orderId ≤ calls.length :=
  Nat.sub_le _ _

theorem arrival_of_places (places : call.Places orderId) :
    arrival (calls ++ [call]) orderId = calls.length + 1 := by
  simp [arrival, List.findIdx_cons, places]

theorem arrival_of_not_places (other : ¬ call.Places orderId) :
    arrival (calls ++ [call]) orderId = arrival calls orderId := by
  simp [arrival, List.findIdx_cons, other]

end Arrival

/-! ## The reference -/

/-- The limit of a resting order. -/
def Order.limit (order : Order) : ℚ :=
  order.price.getD 0

/-- A better price comes first, and an earlier call at the same price. -/
def Precedes (calls : List BookCall) (side : OrderSide)
    (first second : Order) : Prop :=
  side.Better first.limit second.limit ∨
    first.limit = second.limit ∧
      arrival calls first.orderId ≤ arrival calls second.orderId

instance (calls : List BookCall) (side : OrderSide) :
    DecidableRel (Precedes calls side) :=
  fun _ _ => inferInstanceAs (Decidable (_ ∨ _))

/-- The orders of one side in the order in which they are served. -/
def priorityQueue (calls : List BookCall) (side : OrderSide)
    (orders : List Order) : List Order :=
  orders.insertionSort (Precedes calls side)

/-- The resting orders whose price the incoming order accepts. -/
def acceptable (order : Order) (queue : List Order) : List Order :=
  queue.filter fun resting => ¬ order.Refuses resting.limit

/-- What the reference gives to each resting order it serves. -/
def referenceFills (calls : List BookCall) (order : Order)
    (state : BookState) : List (Order × ℚ) :=
  Greedy.allocate state.heap.remaining order.quantity
    (acceptable order
      (priorityQueue calls order.side.opposite
        (state.book.restingOn order.side.opposite)))

/-- The trade executes one fill of the reference at the resting price. -/
def Executes (instrumentId : String) (order : Order) (trade : Trade)
    (served : Order × ℚ) : Prop :=
  served.1.price = some trade.price ∧
    OrderBook.TradeOf trade instrumentId order served.1 trade.price
      served.2

/-- The remainder of an order has joined its side, last at its price. -/
structure RestsLast (order : Order) (limit : ℚ)
    (before after : List Order) : Prop where
  place : ∃ ahead behind, before = ahead ++ behind ∧
    after = ahead ++ order :: behind ∧
    (∀ other ∈ ahead, ¬ order.side.Better limit other.limit) ∧
    ∀ other ∈ behind, order.side.Better limit other.limit

/-- The call agrees with the price-time-priority reference. -/
structure PriceTimePriority (calls : List BookCall) (order : Order)
    (state : BookState) (trades : List Trade)
    (reached : BookState) : Prop where
  fills :
    List.Forall₂ (Executes state.book.instrumentId order) trades
      (referenceFills calls order state)
  touched : ∀ served ∈ referenceFills calls order state,
    reached.heap.remaining served.1 =
      state.heap.remaining served.1 - served.2
  completed : ∀ served ∈ (referenceFills calls order state).dropLast,
    reached.heap.remaining served.1 = 0
  total :
    (trades.map Trade.quantity).sum =
      min order.quantity
        ((acceptable order
          (state.book.restingOn order.side.opposite)).map
            state.heap.remaining).sum
  remainder :
    reached.heap.remaining order =
      order.quantity - (trades.map Trade.quantity).sum
  untouched : ∀ other ∈ state.book.resting,
    other ∉ (referenceFills calls order state).map Prod.fst →
      reached.heap.remaining other = state.heap.remaining other
  opposite :
    reached.book.restingOn order.side.opposite =
      (state.book.restingOn order.side.opposite).filter
        fun other => ¬ other.IsFilled reached.heap
  rests : ∀ limit, order.price = some limit →
    ¬ order.IsFilled reached.heap →
      RestsLast order limit (state.book.restingOn order.side)
        (reached.book.restingOn order.side)
  leaves : order.IsFilled reached.heap ∨ ¬ order.IsLimitOrder →
    reached.book.restingOn order.side = state.book.restingOn order.side
  sorted : ∀ side,
    priorityQueue calls side (state.book.restingOn side) =
        state.book.restingOn side ∧
      priorityQueue (calls ++ [.addOrder order]) side
          (reached.book.restingOn side) =
        reached.book.restingOn side

/-! ## The resting orders are in priority order -/

/-- Both sides of the book are in the order of the reference. -/
def PrioritySorted (calls : List BookCall) (state : BookState) : Prop :=
  ∀ side, (state.book.restingOn side).Pairwise (Precedes calls side)

section Sorted

variable {calls : List BookCall} {call : BookCall}
  {state reached : BookState} {order : Order}

theorem PrioritySorted.priorityQueue_eq
    (sorted : PrioritySorted calls state) (side : OrderSide) :
    priorityQueue calls side (state.book.restingOn side) =
      state.book.restingOn side :=
  (sorted side).insertionSort_eq

/-- A later call does not change the priority of the orders before it. -/
theorem Precedes.later {side : OrderSide} {first second : Order}
    (precedes : Precedes calls side first second)
    (notFirst : ¬ call.Places first.orderId)
    (notSecond : ¬ call.Places second.orderId) :
    Precedes (calls ++ [call]) side first second := by
  rw [Precedes, arrival_of_not_places calls notFirst,
    arrival_of_not_places calls notSecond]
  exact precedes

/-- Orders which only leave a side keep their priority. -/
theorem pairwise_later {side : OrderSide} {before after : List Order}
    (sorted : before.Pairwise (Precedes calls side))
    (sub : after.Sublist before)
    (notPlaced : ∀ other ∈ after, ¬ call.Places other.orderId) :
    after.Pairwise (Precedes (calls ++ [call]) side) := by
  apply (sorted.sublist sub).imp_of_mem
  intro first second firstMember secondMember precedes
  exact precedes.later (notPlaced first firstMember)
    (notPlaced second secondMember)

/-- An order which rests last at its price is in its place. -/
theorem RestsLast.pairwise {before after : List Order}
    (last : RestsLast order order.limit before after)
    (sorted : before.Pairwise (Precedes calls order.side))
    (fresh : ∀ other ∈ before, other.orderId ≠ order.orderId) :
    after.Pairwise
      (Precedes (calls ++ [.addOrder order]) order.side) := by
  rcases last.place with ⟨ahead, behind, rfl, rfl, notWorse, worse⟩
  have unplaced : ∀ other ∈ ahead ++ behind,
      ¬ (BookCall.addOrder order).Places other.orderId := by
    intro other member places
    exact fresh other member places.symm
  have later :=
    pairwise_later sorted (List.Sublist.refl _) unplaced
  have parts := List.pairwise_append.mp later
  refine List.pairwise_append.mpr
    ⟨parts.1, List.pairwise_cons.mpr ⟨?_, parts.2.1⟩, ?_⟩
  · intro other member
    exact Or.inl (worse other member)
  · intro first firstMember second secondMember
    rcases List.mem_cons.mp secondMember with rfl | inBehind
    · by_cases equal : first.limit = second.limit
      · have placed :
            (BookCall.addOrder second).Places second.orderId := rfl
        refine Or.inr ⟨equal, ?_⟩
        rw [arrival_of_places calls placed,
          arrival_of_not_places calls
            (unplaced first (List.mem_append_left _ firstMember))]
        exact (arrival_le_length _).trans (Nat.le_succ _)
      · exact Or.inl
          ((OrderSide.better_or_better equal).resolve_right
            (notWorse first firstMember))
    · exact parts.2.2 first firstMember second inBehind

theorem limit_of_mem (shape : BookShape state.book) {side : OrderSide}
    {level : PriceLevel} (levelMember : level ∈ state.book.levels side)
    (member : order ∈ level.orders) : order.limit = level.price := by
  rw [Order.limit,
    (shape.side side).ownPrice level levelMember order member]
  rfl

/-- The remainder of a limit order joins its side, last at its price. -/
theorem rest_restsLast (shape : BookShape state.book)
    (unfilled : ¬ order.IsFilled state.heap) {limit : ℚ}
    (priced : order.price = some limit) :
    RestsLast order limit (state.book.restingOn order.side)
      ((state.rest order).book.restingOn order.side) := by
  rcases @insertIntoLevels_joined _ order limit _ state.heap
      (shape.side order.side) with
    ⟨before, level, after, joined, levels⟩
  have changed :
      (state.rest order).book.levels order.side =
        before ++ level.addOrder state.heap order :: after := by
    rw [BookState.rest, priced]
    simp only [if_neg unfilled]
    exact inserted_levels.trans levels
  refine ⟨before.flatMap PriceLevel.orders ++ level.orders,
    after.flatMap PriceLevel.orders, ?_, ?_, ?_, ?_⟩
  · rw [OrderBook.restingOn, joined.split]
    simp
  · rw [OrderBook.restingOn, changed]
    simp [PriceLevel.addOrder]
  · intro other member
    rcases List.mem_append.mp member with ahead | beside
    · rcases List.mem_flatMap.mp ahead with ⟨near, nearMember, inNear⟩
      rw [limit_of_mem shape
        (joined.mem_of_mem (List.mem_append_left _ nearMember)) inNear]
      exact (joined.better near nearMember).asymm
    · rw [limit_of_mem shape (joined.orders_subset beside) beside,
        joined.atPrice]
      exact fun better => better.ne rfl
  · intro other member
    rcases List.mem_flatMap.mp member with ⟨far, farMember, inFar⟩
    rw [limit_of_mem shape
      (joined.mem_of_mem (List.mem_append_right _ farMember)) inFar]
    exact joined.worse far farMember

theorem rest_restingOn_opposite :
    (state.rest order).book.restingOn order.side.opposite =
      state.book.restingOn order.side.opposite := by
  apply OrderBook.restingOn_congr
  rcases @rest_cases order state with unchanged | ⟨limit, _, _, inserted⟩
  · rw [unchanged]
  · rw [inserted]
    exact inserted_levels_opposite

theorem rest_restingOn_of_leaves
    (leaves : order.IsFilled state.heap ∨ ¬ order.IsLimitOrder) :
    (state.rest order).book.restingOn order.side =
      state.book.restingOn order.side := by
  rcases @rest_cases order state with
    unchanged | ⟨limit, priced, unfilled, _⟩
  · rw [unchanged]
  · rcases leaves with filled | notLimit
    · exact absurd filled unfilled
    · exact absurd ((order.isLimitOrder_iff).mpr ⟨limit, priced⟩)
        notLimit

/-- Adding an order keeps the priority order of both sides. -/
theorem PrioritySorted.addOrder {trades : List Trade}
    {matched : BookState}
    (sorted : PrioritySorted calls state)
    (fresh : ∀ resting ∈ state.book.resting,
      resting.orderId ≠ order.orderId)
    (changes : Matched order state trades matched)
    (shape : BookShape matched.book) :
    PrioritySorted (calls ++ [.addOrder order])
      (matched.rest order) := by
  have unplaced : ∀ side, ∀ other ∈ state.book.restingOn side,
      ¬ (BookCall.addOrder order).Places other.orderId := by
    intro side other member places
    exact fresh other (OrderBook.mem_resting_of_mem member) places.symm
  have own : matched.book.restingOn order.side =
      state.book.restingOn order.side :=
    OrderBook.restingOn_congr changes.own
  intro side
  by_cases isOwn : side = order.side
  · subst isOwn
    by_cases leaves :
        order.IsFilled matched.heap ∨ ¬ order.IsLimitOrder
    · rw [rest_restingOn_of_leaves leaves, own]
      exact pairwise_later (sorted _) (List.Sublist.refl _)
        (unplaced _)
    · have unfilled : ¬ order.IsFilled matched.heap :=
        fun filled => leaves (Or.inl filled)
      have isLimit : order.IsLimitOrder :=
        not_not.mp fun notLimit => leaves (Or.inr notLimit)
      rcases order.isLimitOrder_iff.mp isLimit with ⟨limit, priced⟩
      have last := rest_restsLast shape unfilled priced
      rw [own] at last
      have equal : limit = order.limit := by
        rw [Order.limit, priced]
        rfl
      rw [equal] at last
      apply last.pairwise (sorted _)
      intro other member
      exact fresh other (OrderBook.mem_resting_of_mem member)
  · rcases OrderSide.eq_opposite_of_ne isOwn with rfl
    rw [rest_restingOn_opposite]
    exact pairwise_later (sorted _) changes.queue
      fun other member =>
        unplaced _ other (changes.queue.subset member)

/-- Cancelling keeps the priority order of both sides. -/
theorem PrioritySorted.cancelOrder {side : OrderSide}
    (sorted : PrioritySorted calls state)
    (removed : Removed side order state.book reached.book)
    (orderId : String) :
    PrioritySorted (calls ++ [.cancelOrder orderId]) reached := by
  intro which
  refine @pairwise_later calls (.cancelOrder orderId) _ _ _
    (sorted which) ?_ fun _ _ places => places
  by_cases own : which = side
  · subst own
    rcases removed.queue with ⟨before, after, whole, rest⟩
    rw [whole, rest]
    exact (List.Sublist.refl _).append (List.sublist_cons_self _ _)
  · rcases OrderSide.eq_opposite_of_ne own with rfl
    rw [OrderBook.restingOn_congr removed.other]

/-- In every reachable book both sides are in priority order. -/
theorem PrioritySorted.of_run {instrumentId : String}
    (run : Run BookStep (BookState.initial instrumentId) calls state) :
    PrioritySorted calls state := by
  refine run.induction_history PrioritySorted ?_ ?_
  · intro side
    cases side <;> exact List.Pairwise.nil
  · rintro history before call _ prior sorted ⟨allowed, rfl⟩
    have invariant := BookInv.of_run prior
    cases call with
    | addOrder order =>
        have allocated := invariant.allocate allowed.2
        have ends := addOrder_sound allocated
          (Order.Fillable.allocate before.heap allowed.1)
        rw [BookCall.execute]
        cases evaluated :
            OrderBook.addOrder order
              (before.withOrder order) with
        | ok trades reached =>
            rcases ends.elim_ok evaluated with ⟨_, matched, rfl, sound⟩
            have start : PrioritySorted history
                (before.withOrder order) := sorted
            exact start.addOrder allowed.2 sound.changes
              sound.invariant.shape
        | error exception reached =>
            rcases ends.elim_error evaluated with ⟨rfl, _⟩
            intro side
            apply pairwise_later (sorted side) (List.Sublist.refl _)
            intro other member places
            exact allowed.2 other
              (OrderBook.mem_resting_of_mem member) places.symm
    | cancelOrder orderId =>
        rw [BookCall.execute]
        rcases cancelOrder_cases invariant.shape orderId with
          ⟨side, order, reached, _, _, evaluates, cancelled⟩ |
            ⟨_, evaluates⟩
        · rw [evaluates, finalState_ok]
          exact sorted.cancelOrder cancelled.removed orderId
        · rw [evaluates, finalState_ok]
          intro side
          exact pairwise_later (sorted side) (List.Sublist.refl _)
            fun _ _ places => places

end Sorted

/-! ## Matching serves the queue greedily -/

/-- The greedy allocation of what an order still asks for. -/
def remainingFills (order : Order) (state : BookState) :
    List (Order × ℚ) :=
  Greedy.allocate state.heap.remaining (state.heap.remaining order)
    (acceptable order (state.book.restingOn order.side.opposite))

/-- The loop has executed a part of the allocation. -/
structure Serving (order : Order) (start : BookState)
    (trades : List Trade) (reached : BookState) : Prop where
  quantities : BookQuantities reached
  fillable : order.Fillable reached.heap
  fills : ∃ served,
    List.Forall₂ (Executes start.book.instrumentId order) trades
        served ∧
      remainingFills order start =
        served ++ remainingFills order reached
  queue :
    reached.book.restingOn order.side.opposite =
      (start.book.restingOn order.side.opposite).filter
        fun other => ¬ other.IsFilled reached.heap

namespace Serving

variable {order : Order} {start reached : BookState}
  {trades : List Trade} {fill : Fill}

theorem refl (invariant : BookInv start)
    (fillable : order.Fillable start.heap) :
    Serving order start [] start where
  quantities := invariant.quantities
  fillable := fillable
  fills := ⟨[], List.Forall₂.nil, rfl⟩
  queue := by
    refine (List.filter_eq_self.mpr ?_).symm
    intro other member
    simpa using invariant.quantities.unfilled
      (OrderBook.mem_resting_of_mem member)

/-- The next fill of the allocation is the next trade of the loop. -/
theorem remainingFills_next (next : fill.Next order reached)
    (shape : BookShape reached.book)
    (absent : order.orderId ∉ reached.book.orderIds) :
    remainingFills order reached =
      (fill.matching, fill.trade.quantity) ::
        remainingFills order (reached.afterFill order fill) := by
  have acceptedHead : ¬ order.Refuses fill.matching.limit := by
    rw [limit_of_mem shape next.mem_levels next.mem_orders]
    exact next.accepted
  have demand : reached.heap.remaining order ≠ 0 := next.unfilled
  rw [remainingFills, next.restingOn, acceptable,
    List.filter_cons_of_pos (by simpa using acceptedHead),
    Greedy.allocate_cons _ _ _ demand, ← next.quantity,
    remainingFills, next.remaining_order shape absent]
  congr 1
  by_cases completes : fill.Completes reached.heap
  · rw [next.restingOn_after, if_pos completes]
    apply Greedy.allocate_congr
    intro other member
    have behind := (List.mem_filter.mp member).1
    have resting : other ∈ reached.book.resting := by
      apply @OrderBook.mem_resting_of_mem _ order.side.opposite
      rw [next.restingOn]
      exact List.mem_cons_of_mem _ behind
    exact (Fill.Next.remaining_resting shape absent resting
      (next.ne_of_mem_behind shape behind)).symm
  · rw [next.order_filled_of_not_completes completes, sub_self,
      Greedy.allocate_zero, Greedy.allocate_zero]

/-- The trade leaves exactly the unfilled orders in the queue. -/
theorem queue_next (serving : Serving order start trades reached)
    (next : fill.Next order reached)
    (shape : BookShape reached.book)
    (absent : order.orderId ∉ reached.book.orderIds)
    (startAbsent : ∀ other ∈ start.book.resting,
      other.orderId ≠ order.orderId) :
    (reached.afterFill order fill).book.restingOn order.side.opposite =
      (start.book.restingOn order.side.opposite).filter
        fun other =>
          ¬ other.IsFilled (reached.afterFill order fill).heap := by
  have stillUnfilled : ∀ other ∈ start.book.restingOn order.side.opposite,
      ¬ other.IsFilled (reached.afterFill order fill).heap →
        ¬ other.IsFilled reached.heap := by
    intro other member unfilled filled
    by_cases isMatching : other.orderId = fill.matching.orderId
    · have zero : reached.heap.remaining fill.matching = 0 := by
        rw [Heap.remaining, ← isMatching]
        exact filled
      exact serving.quantities.unfilled next.mem_resting zero
    · apply unfilled
      exact (Fill.Next.remaining_other
        (startAbsent other (OrderBook.mem_resting_of_mem member))
        isMatching).trans filled
  have narrowed :
      ((start.book.restingOn order.side.opposite).filter fun other =>
          ¬ other.IsFilled (reached.afterFill order fill).heap) =
        (reached.book.restingOn order.side.opposite).filter fun other =>
          ¬ other.IsFilled (reached.afterFill order fill).heap := by
    rw [serving.queue, List.filter_filter]
    apply List.filter_congr
    intro other member
    by_cases unfilled :
        other.IsFilled (reached.afterFill order fill).heap
    · simp [unfilled]
    · simp [unfilled, stillUnfilled other member unfilled]
  have behindUnfilled :
      ((fill.queue ++ fill.deeper.flatMap PriceLevel.orders).filter
          fun other =>
            ¬ other.IsFilled (reached.afterFill order fill).heap) =
        fill.queue ++ fill.deeper.flatMap PriceLevel.orders := by
    rw [List.filter_eq_self]
    intro other behind
    have resting : other ∈ reached.book.resting := by
      apply @OrderBook.mem_resting_of_mem _ order.side.opposite
      rw [next.restingOn]
      exact List.mem_cons_of_mem _ behind
    have unchanged := Fill.Next.remaining_resting shape absent resting
      (next.ne_of_mem_behind shape behind)
    have unfilled := serving.quantities.unfilled resting
    simpa [Order.IsFilled, unchanged] using unfilled
  rw [narrowed, next.restingOn_after, next.restingOn]
  by_cases completes : fill.Completes reached.heap
  · have filled :
        fill.matching.IsFilled (reached.afterFill order fill).heap :=
      Fill.Next.remaining_matching.trans (sub_eq_zero.mpr completes)
    rw [if_pos completes, List.filter_cons_of_neg (by simpa using filled),
      behindUnfilled]
  · have unfilled :
        ¬ fill.matching.IsFilled (reached.afterFill order fill).heap := by
      intro filled
      exact completes
        (sub_eq_zero.mp (Fill.Next.remaining_matching.symm.trans filled))
    rw [if_neg completes,
      List.filter_cons_of_pos (by simpa using unfilled), behindUnfilled]

theorem step (serving : Serving order start trades reached)
    (changes : Matched order start trades reached)
    (next : fill.Next order reached)
    (shape : BookShape reached.book)
    (absent : order.orderId ∉ reached.book.orderIds)
    (startAbsent : ∀ other ∈ start.book.resting,
      other.orderId ≠ order.orderId) :
    Serving order start (trades ++ [fill.trade])
      (reached.afterFill order fill) where
  quantities := next.quantities shape absent serving.quantities
  fillable := next.order_fillable shape absent serving.fillable
  fills := by
    rcases serving.fills with ⟨served, executes, allocation⟩
    refine ⟨served ++ [(fill.matching, fill.trade.quantity)], ?_, ?_⟩
    · apply List.rel_append executes
      refine List.Forall₂.cons ?_ List.Forall₂.nil
      have tradeOf := next.tradeOf
      have ownPrice :=
        (shape.side order.side.opposite).ownPrice fill.best
          next.mem_levels fill.matching next.mem_orders
      rw [← next.quantity, ← tradeOf.atPrice,
        changes.instrument] at tradeOf
      refine ⟨?_, tradeOf⟩
      rw [next.tradeOf.atPrice]
      exact ownPrice
    · rw [allocation, remainingFills_next next shape absent,
        List.append_assoc, List.singleton_append]
  queue := serving.queue_next next shape absent startAbsent

/-- When the loop ends nothing of the allocation is left. -/
theorem fills_of_done (serving : Serving order start trades reached)
    (done : MatchingDone order reached)
    (shape : BookShape reached.book) :
    List.Forall₂ (Executes start.book.instrumentId order) trades
      (remainingFills order start) := by
  rcases serving.fills with ⟨served, executes, allocation⟩
  suffices finished : remainingFills order reached = [] by
    rw [allocation, finished, List.append_nil]
    exact executes
  by_cases filled : order.IsFilled reached.heap
  · rw [remainingFills, show reached.heap.remaining order = 0 from filled,
      Greedy.allocate_zero]
  · have none :
        acceptable order
          (reached.book.restingOn order.side.opposite) = [] := by
      rw [acceptable, List.filter_eq_nil_iff]
      intro other member
      rcases OrderBook.mem_restingOn_iff.mp member with
        ⟨level, levelMember, inLevel⟩
      have refuses := done.refuses shape filled level levelMember
      rw [← limit_of_mem shape levelMember inLevel] at refuses
      simpa using refuses
    rw [remainingFills, none, Greedy.allocate_nil]

end Serving

/-! ## What the executed trades say about each order -/

section Executed

variable {instrumentId : String} {order : Order}
  {trades : List Trade} {served : List (Order × ℚ)}

theorem tradedQuantity_cons (orderId : String) (trade : Trade)
    (rest : List Trade) :
    tradedQuantity orderId (trade :: rest) =
      (if trade.Names orderId then trade.quantity else 0) +
        tradedQuantity orderId rest := by
  rw [← List.singleton_append, tradedQuantity_append,
    tradedQuantity_singleton]

theorem sum_quantities
    (executes : List.Forall₂ (Executes instrumentId order) trades served) :
    (trades.map Trade.quantity).sum = Greedy.total served := by
  induction executes with
  | nil => rfl
  | cons head _ induction =>
      simp only [List.map_cons, List.sum_cons, induction, Greedy.total,
        head.2.forQuantity]

/-- Every trade of the loop is a trade of the incoming order. -/
theorem tradedQuantity_order
    (executes : List.Forall₂ (Executes instrumentId order) trades served) :
    tradedQuantity order.orderId trades =
      (trades.map Trade.quantity).sum := by
  induction executes with
  | nil => rfl
  | cons head _ induction =>
      rw [tradedQuantity_cons,
        if_pos ((head.2.names_iff _).mpr (Or.inl rfl)), induction,
        List.map_cons, List.sum_cons]

theorem tradedQuantity_unserved {orderId : String}
    (executes : List.Forall₂ (Executes instrumentId order) trades served)
    (notOrder : orderId ≠ order.orderId)
    (unserved : ∀ one ∈ served, one.1.orderId ≠ orderId) :
    tradedQuantity orderId trades = 0 := by
  induction executes with
  | nil => rfl
  | @cons trade one _ rest head _ induction =>
      have unnamed : ¬ trade.Names orderId := by
        rw [head.2.names_iff]
        exact not_or.mpr
          ⟨Ne.symm notOrder, unserved one List.mem_cons_self⟩
      rw [tradedQuantity_cons, if_neg unnamed, zero_add]
      exact induction fun other member =>
        unserved other (List.mem_cons_of_mem _ member)

/-- A resting order is served once, with the amount of the allocation. -/
theorem tradedQuantity_served {one : Order × ℚ}
    (executes : List.Forall₂ (Executes instrumentId order) trades served)
    (distinct : (served.map fun other => other.1.orderId).Nodup)
    (apart : ∀ other ∈ served, other.1.orderId ≠ order.orderId)
    (member : one ∈ served) :
    tradedQuantity one.1.orderId trades = one.2 := by
  induction executes with
  | nil => exact absurd member List.not_mem_nil
  | @cons trade first _ rest head tail induction =>
      rw [List.map_cons, List.nodup_cons] at distinct
      have restApart : ∀ other ∈ rest,
          other.1.orderId ≠ order.orderId :=
        fun other inRest => apart other (List.mem_cons_of_mem _ inRest)
      rw [tradedQuantity_cons]
      rcases List.mem_cons.mp member with rfl | inRest
      · have notLater : ∀ other ∈ rest,
            other.1.orderId ≠ one.1.orderId := by
          intro other inRest equal
          exact distinct.1
            (List.mem_map.mpr ⟨other, inRest, equal⟩)
        rw [if_pos ((head.2.names_iff _).mpr (Or.inr rfl)),
          tradedQuantity_unserved tail
            (apart one List.mem_cons_self) notLater,
          add_zero, head.2.forQuantity]
      · have unnamed : ¬ trade.Names one.1.orderId := by
          rw [head.2.names_iff]
          refine not_or.mpr ⟨(restApart one inRest).symm, ?_⟩
          intro equal
          exact distinct.1
            (List.mem_map.mpr ⟨one, inRest, equal.symm⟩)
        rw [if_neg unnamed, zero_add]
        exact induction distinct.2 restApart inRest

end Executed

/-! ## Agreement with the reference -/

section Agreement

variable {calls : List BookCall} {state matched : BookState}
  {order : Order} {trades : List Trade}

/-- The reference is the allocation which the loop executes. -/
theorem referenceFills_eq (sorted : PrioritySorted calls state)
    (fresh : ∀ resting ∈ state.book.resting,
      resting.orderId ≠ order.orderId) :
    referenceFills calls order state =
      remainingFills order (state.withOrder order) := by
  have demand :
      (state.withOrder order).heap.remaining order = order.quantity :=
    Heap.remaining_allocate_self ..
  rw [referenceFills, remainingFills, demand, sorted.priorityQueue_eq]
  apply Greedy.allocate_congr
  intro other member
  have resting := OrderBook.mem_resting_of_mem
    (List.mem_filter.mp member).1
  exact (Heap.remaining_allocate_ne _ (fresh other resting)).symm

theorem referenceFills_sublist (sorted : PrioritySorted calls state) :
    ((referenceFills calls order state).map Prod.fst).Sublist
      (state.book.restingOn order.side.opposite) := by
  have served := (Greedy.items_prefix state.heap.remaining order.quantity
    (acceptable order
      (priorityQueue calls order.side.opposite
        (state.book.restingOn order.side.opposite)))).sublist
  rw [sorted.priorityQueue_eq] at served
  rw [referenceFills, sorted.priorityQueue_eq]
  exact served.trans List.filter_sublist

theorem referenceFills_resting (sorted : PrioritySorted calls state)
    {one : Order × ℚ} (member : one ∈ referenceFills calls order state) :
    one.1 ∈ state.book.resting :=
  OrderBook.mem_resting_of_mem
    ((referenceFills_sublist sorted).subset
      (List.mem_map_of_mem member))

theorem referenceFills_distinct (sorted : PrioritySorted calls state)
    (shape : BookShape state.book) :
    ((referenceFills calls order state).map
      fun one => one.1.orderId).Nodup := by
  have distinct :=
    ((@OrderBook.resting_perm _ order.side.opposite).map
      Order.orderId).nodup_iff.mp shape.distinct
  rw [List.map_append] at distinct
  have sub :=
    (@referenceFills_sublist calls state order sorted).map Order.orderId
  rw [List.map_map] at sub
  exact (List.nodup_append.mp distinct).1.sublist sub

/-- The remaining quantities once the order has been matched. -/
theorem remaining_after (sorted : PrioritySorted calls state)
    (shape : BookShape state.book)
    (fresh : ∀ resting ∈ state.book.resting,
      resting.orderId ≠ order.orderId)
    (changes : Matched order (state.withOrder order) trades matched)
    (executes :
      List.Forall₂ (Executes state.book.instrumentId order) trades
        (referenceFills calls order state)) :
    (∀ served ∈ referenceFills calls order state,
      matched.heap.remaining served.1 =
        state.heap.remaining served.1 - served.2) ∧
    ∀ other ∈ state.book.resting,
      other ∉ (referenceFills calls order state).map Prod.fst →
        matched.heap.remaining other = state.heap.remaining other := by
  have apart : ∀ one ∈ referenceFills calls order state,
      one.1.orderId ≠ order.orderId := fun one member =>
    fresh one.1 (referenceFills_resting sorted member)
  have unchanged : ∀ other ∈ state.book.resting,
      matched.heap.remaining other =
        state.heap.remaining other -
          tradedQuantity other.orderId trades := by
    intro other member
    rw [Heap.remaining, changes.accounts]
    congr 1
    exact Heap.remaining_allocate_ne _ (fresh other member)
  constructor
  · intro one member
    rw [unchanged one.1 (referenceFills_resting sorted member),
      tradedQuantity_served executes
        (referenceFills_distinct sorted shape) apart member]
  · intro other member unserved
    have notServed : ∀ one ∈ referenceFills calls order state,
        one.1.orderId ≠ other.orderId := by
      intro one oneMember equal
      apply unserved
      have same := shape.eq_of_orderId_eq
        (referenceFills_resting sorted oneMember) member equal
      exact List.mem_map.mpr ⟨one, oneMember, same⟩
    rw [unchanged other member,
      tradedQuantity_unserved executes (fresh other member) notServed,
      sub_zero]

theorem total_traded (sorted : PrioritySorted calls state)
    (quantities : BookQuantities state)
    (executes :
      List.Forall₂ (Executes state.book.instrumentId order) trades
        (referenceFills calls order state)) :
    (trades.map Trade.quantity).sum =
      min order.quantity
        ((acceptable order
          (state.book.restingOn order.side.opposite)).map
            state.heap.remaining).sum := by
  rw [sum_quantities executes, referenceFills, sorted.priorityQueue_eq]
  apply Greedy.total_allocate _ order.quantity_positive.le
  intro other member
  exact quantities.positive other
    (OrderBook.mem_resting_of_mem (List.mem_filter.mp member).1)

/-- The outcome of the loop and of the insertion, against the reference. -/
theorem priceTimePriority_of_serving
    (sorted : PrioritySorted calls state) (invariant : BookInv state)
    (fresh : ∀ resting ∈ state.book.resting,
      resting.orderId ≠ order.orderId)
    (changes : Matched order (state.withOrder order) trades matched)
    (serving : Serving order (state.withOrder order) trades matched)
    (shape : BookShape matched.book)
    (done : MatchingDone order matched) :
    PriceTimePriority calls order state trades
      (matched.rest order) := by
  have executes :
      List.Forall₂ (Executes state.book.instrumentId order) trades
        (referenceFills calls order state) := by
    rw [referenceFills_eq sorted fresh]
    exact serving.fills_of_done done shape
  have remaining :=
    remaining_after sorted invariant.shape fresh changes executes
  have heapAfter : (matched.rest order).heap = matched.heap := rest_heap
  have own : matched.book.restingOn order.side =
      state.book.restingOn order.side :=
    OrderBook.restingOn_congr changes.own
  have start : PrioritySorted calls (state.withOrder order) := sorted
  constructor
  · exact executes
  · rw [heapAfter]
    exact remaining.1
  · intro one member
    have full := Greedy.full_of_mem_dropLast member
    rw [heapAfter, remaining.1 one (List.mem_of_mem_dropLast member),
      full, sub_self]
  · exact total_traded sorted invariant.quantities executes
  · rw [heapAfter, Heap.remaining, changes.accounts,
      tradedQuantity_order executes]
    congr 1
    exact Heap.remaining_allocate_self ..
  · rw [heapAfter]
    exact remaining.2
  · rw [heapAfter, rest_restingOn_opposite]
    exact serving.queue
  · intro limit priced unfilled
    rw [heapAfter] at unfilled
    rw [← own]
    exact rest_restsLast shape unfilled priced
  · intro leaves
    rw [heapAfter] at leaves
    rw [rest_restingOn_of_leaves leaves, own]
  · intro side
    exact ⟨sorted.priorityQueue_eq side,
      (start.addOrder fresh changes shape).priorityQueue_eq side⟩

end Agreement

/--
In every reachable book a new order is served as the price-time-priority
reference says.  The call returns: the loop ends, it never meets an empty
level and its trades are never refused.
-/
theorem addOrder_priceTimePriority {instrumentId : String}
    {calls : List BookCall} {state : BookState}
    (run : Run BookStep (BookState.initial instrumentId) calls state)
    (order : Order)
    (instrument : order.instrumentId = state.book.instrumentId)
    (whole : Whole order.quantity)
    (fresh : ∀ resting ∈ state.book.resting,
      resting.orderId ≠ order.orderId) :
    ∃ trades reached,
      OrderBook.addOrder order (state.withOrder order) =
          .ok trades reached ∧
        PriceTimePriority calls order state trades reached := by
  have invariant := BookInv.of_run run
  have sorted := PrioritySorted.of_run run
  have allocated : BookInv (state.withOrder order) :=
    invariant.allocate fresh
  have fillable : order.Fillable (state.withOrder order).heap :=
    Order.Fillable.allocate state.heap whole
  have addable : Addable order (state.withOrder order) := by
    refine ⟨instrument, ?_⟩
    intro present
    rcases (invariant.shape.ids _).mp present with ⟨other, member, equal⟩
    exact fresh other member equal
  have ends := addOrder_ends (Serving order (state.withOrder order))
    allocated.shape
    (fun trades reached fill changes shape absent serving next =>
      serving.step changes next shape absent fresh)
    (fun _ => Serving.refl allocated fillable)
  cases evaluated :
      OrderBook.addOrder order (state.withOrder order) with
  | ok trades reached =>
      rcases ends.elim_ok evaluated with
        ⟨_, matched, rfl, changes, serving, shape, _, done⟩
      exact ⟨trades, _, rfl,
        priceTimePriority_of_serving sorted invariant fresh changes
          serving shape done⟩
  | error exception reached =>
      rcases ends.elim_error evaluated with
        ⟨_, guarded⟩ | ⟨_, shape, rejected, trades, _, serving⟩
      · exact absurd addable guarded
      · exact absurd rejected
          (not_tradeRejected ⟨shape, serving.quantities⟩
            serving.fillable)

/-- A buy order meets a resting sell order, which stays first in line. -/
theorem addOrder_priceTimePriority_partial_fill :
    ∃ trades reached,
      OrderBook.addOrder Sample.buyFour
          ((replay BookCall.execute (BookState.initial "CALL")
            [.addOrder Sample.sellTen]).withOrder Sample.buyFour) =
          .ok trades reached ∧
        PriceTimePriority [.addOrder Sample.sellTen] Sample.buyFour
          (replay BookCall.execute (BookState.initial "CALL")
            [.addOrder Sample.sellTen]) trades reached :=
  addOrder_priceTimePriority (run_replay (by decide +kernel))
    Sample.buyFour (by decide +kernel) (by decide +kernel)
    (by decide +kernel)

end InternTradingGame
