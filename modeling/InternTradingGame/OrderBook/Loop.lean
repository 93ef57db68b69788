import InternTradingGame.OrderBook.Matching

/-!
# Runs of the matching loop

The loop ends because every trade either fills the incoming order or takes
an order out of the opposite queue.  `matchLoop_ends` is its rule: what
holds before the first trade and is kept by every trade holds when the loop
ends, and also in the state an unacceptable trade leaves behind.

`Matched` collects what needs no assumption about quantities.
-/

namespace InternTradingGame

open Effects

/-! ## The rule of the loop -/

/-- The next trade is not accepted by its constructor. -/
def TradeRejected (order : Order) (exception : PyError)
    (state : BookState) : Prop :=
  ∃ best deeper matching queue,
    ¬ order.IsFilled state.heap ∧
    state.book.levels order.side.opposite = best :: deeper ∧
    best.orders = matching :: queue ∧
    ¬ order.Refuses best.price ∧
    state.book.newTrade order matching best.price
      (min (state.heap.remaining order)
        (state.heap.remaining matching)) = .error exception

/-- How many trades the loop can still make. -/
def tradesLeft (order : Order) (state : BookState) : Nat :=
  if order.IsFilled state.heap then
    0
  else
    (state.book.restingOn order.side.opposite).length

namespace Fill.Next

variable {fill : Fill} {order : Order} {state : BookState}

theorem remaining_order (next : fill.Next order state)
    (shape : BookShape state.book)
    (absent : order.orderId ∉ state.book.orderIds) :
    (state.afterFill order fill).heap.remaining order =
      state.heap.remaining order - fill.trade.quantity := by
  have different : order.orderId ≠ fill.matching.orderId :=
    (shape.not_mem_resting absent fill.matching next.mem_resting).symm
  exact
    (Heap.remaining_setRemaining_ne _ _ different).trans
      (Heap.remaining_setRemaining_self ..)

theorem remaining_matching :
    (state.afterFill order fill).heap.remaining fill.matching =
      state.heap.remaining fill.matching - fill.trade.quantity :=
  Heap.remaining_setRemaining_self ..

/-- Only the two parties of the trade are filled. -/
theorem remaining_other {orderId : String}
    (notOrder : orderId ≠ order.orderId)
    (notMatching : orderId ≠ fill.matching.orderId) :
    (state.afterFill order fill).heap.remainingQuantity orderId =
      state.heap.remainingQuantity orderId := by
  calc
    (state.afterFill order fill).heap.remainingQuantity orderId =
        ((state.heap.record fill.trade).setRemaining order.orderId
          (state.heap.remaining order - fill.trade.quantity)
            ).remainingQuantity orderId :=
      Heap.remainingQuantity_setRemaining_ne _ _ notMatching
    _ = state.heap.remainingQuantity orderId :=
      Heap.remainingQuantity_setRemaining_ne _ _ notOrder

theorem tradesLeft_lt (next : fill.Next order state)
    (shape : BookShape state.book)
    (absent : order.orderId ∉ state.book.orderIds) :
    tradesLeft order (state.afterFill order fill) <
      tradesLeft order state := by
  have before :
      tradesLeft order state =
        (fill.queue ++
          fill.deeper.flatMap PriceLevel.orders).length + 1 := by
    rw [tradesLeft, if_neg next.unfilled, next.restingOn,
      List.length_cons]
  rw [before, tradesLeft]
  split_ifs with filled
  · exact Nat.succ_pos _
  · by_cases completes : fill.Completes state.heap
    · rw [next.restingOn_after, if_pos completes]
      exact Nat.lt_succ_self _
    · have fills := next.order_filled_of_not_completes completes
      exact absurd
        ((next.remaining_order shape absent).trans
          (sub_eq_zero.mpr fills.symm)) filled

end Fill.Next

/--
What one trade keeps holds when the loop ends.  The invariant may mention
the trades made so far.
-/
theorem matchLoop_ends {order : Order}
    (invariant : List Trade → BookState → Prop)
    (keeps : ∀ trades state (fill : Fill),
      BookShape state.book → order.orderId ∉ state.book.orderIds →
        invariant trades state → fill.Next order state →
          invariant (trades ++ [fill.trade])
            (state.afterFill order fill))
    (iterations : Nat) (trades : List Trade) (state : BookState)
    (shape : BookShape state.book)
    (absent : order.orderId ∉ state.book.orderIds)
    (holds : invariant trades state)
    (enough : tradesLeft order state < iterations) :
    Ends (OrderBook.matchLoop order iterations trades) state
      (fun made reached =>
        invariant made reached ∧ BookShape reached.book ∧
          order.orderId ∉ reached.book.orderIds ∧
          MatchingDone order reached)
      (fun exception reached =>
        (∃ made, invariant made reached) ∧ BookShape reached.book ∧
          TradeRejected order exception reached) := by
  induction iterations generalizing trades state with
  | zero => exact absurd enough (Nat.not_lt_zero _)
  | succ iterations induction =>
      rw [OrderBook.matchLoop]
      rcases matchIteration_cases shape absent with
        ⟨done, evaluates⟩ | ⟨fill, next, evaluates⟩ |
          ⟨best, deeper, matching, queue, exception, unfilled, side,
            head, accepted, raised, evaluates⟩
      · apply Ends.bind_ok evaluates
        exact ⟨holds, shape, absent, done⟩
      · apply Ends.bind_ok evaluates
        have fewer := next.tradesLeft_lt shape absent
        apply induction
        · exact next.shape shape
        · intro member
          exact absent (afterFill_orderIds_subset _ _ _ member)
        · exact keeps trades state fill shape absent holds next
        · omega
      · apply Ends.bind_error evaluates
        exact ⟨⟨trades, holds⟩, shape, best, deeper, matching, queue,
          unfilled, side, head, accepted, raised⟩

/-- The bound the source's loop does not need is always large enough. -/
theorem matchOrder_ends {order : Order} {state : BookState}
    (invariant : List Trade → BookState → Prop)
    (keeps : ∀ trades state (fill : Fill),
      BookShape state.book → order.orderId ∉ state.book.orderIds →
        invariant trades state → fill.Next order state →
          invariant (trades ++ [fill.trade])
            (state.afterFill order fill))
    (shape : BookShape state.book)
    (absent : order.orderId ∉ state.book.orderIds)
    (holds : invariant [] state) :
    Ends (OrderBook.matchOrder order) state
      (fun made reached =>
        invariant made reached ∧ BookShape reached.book ∧
          order.orderId ∉ reached.book.orderIds ∧
          MatchingDone order reached)
      (fun exception reached =>
        (∃ made, invariant made reached) ∧ BookShape reached.book ∧
          TradeRejected order exception reached) := by
  rw [OrderBook.matchOrder, ends_get_bind]
  apply matchLoop_ends invariant keeps _ _ _ shape absent holds
  rw [tradesLeft]
  split_ifs
  · exact Nat.succ_pos _
  · exact Nat.lt_succ_self _

/-! ## What the loop does whatever the quantities are -/

/-- The quantity of the trades which name an order. -/
def tradedQuantity (orderId : String) (trades : List Trade) : ℚ :=
  ((trades.filter fun trade => trade.Names orderId).map
    Trade.quantity).sum

section TradedQuantity

variable (orderId : String)

@[simp]
theorem tradedQuantity_nil : tradedQuantity orderId [] = 0 :=
  rfl

@[simp]
theorem tradedQuantity_append (first second : List Trade) :
    tradedQuantity orderId (first ++ second) =
      tradedQuantity orderId first + tradedQuantity orderId second := by
  simp [tradedQuantity]

theorem tradedQuantity_singleton (trade : Trade) :
    tradedQuantity orderId [trade] =
      if trade.Names orderId then trade.quantity else 0 := by
  by_cases named : trade.Names orderId
  · simp [tradedQuantity, named]
  · simp [tradedQuantity, named]

theorem tradedQuantity_eq_zero {trades : List Trade}
    (unnamed : ∀ trade ∈ trades, ¬ trade.Names orderId) :
    tradedQuantity orderId trades = 0 := by
  have none :
      (trades.filter fun trade => trade.Names orderId) = [] := by
    simpa [List.filter_eq_nil_iff] using unnamed
  rw [tradedQuantity, none]
  rfl

end TradedQuantity

/-- What matching an order has done to a book so far. -/
structure Matched (order : Order) (start : BookState)
    (trades : List Trade) (reached : BookState) : Prop where
  instrument :
    reached.book.instrumentId = start.book.instrumentId
  own :
    reached.book.levels order.side = start.book.levels order.side
  queue :
    (reached.book.restingOn order.side.opposite).Sublist
      (start.book.restingOn order.side.opposite)
  orders : reached.heap.orders = start.heap.orders
  recorded : reached.heap.trades = start.heap.trades ++ trades
  accounts : ∀ orderId,
    reached.heap.remainingQuantity orderId =
      start.heap.remainingQuantity orderId -
        tradedQuantity orderId trades
  parties : ∀ trade ∈ trades,
    ∃ matching ∈ start.book.restingOn order.side.opposite,
      ∃ price, matching.price = some price ∧
        ¬ order.Refuses price ∧
        OrderBook.TradeOf trade start.book.instrumentId
          order matching price trade.quantity

namespace Matched

variable {order : Order} {start reached : BookState}
  {trades : List Trade}

theorem resting_subset (matched : Matched order start trades reached) :
    reached.book.resting ⊆ start.book.resting := by
  intro candidate member
  rcases (@OrderBook.mem_resting_iff _ order.side _).mp member with
    own | opposite
  · rw [OrderBook.restingOn_congr matched.own] at own
    exact OrderBook.mem_resting_of_mem own
  · exact OrderBook.mem_resting_of_mem (matched.queue.subset opposite)

theorem refl (order : Order) (start : BookState) :
    Matched order start [] start where
  instrument := rfl
  own := rfl
  queue := List.Sublist.refl _
  orders := rfl
  recorded := (List.append_nil _).symm
  accounts := by simp
  parties := by simp

/-- Accounting for one more trade. -/
theorem afterFill_accounts {fill : Fill} {state : BookState}
    (next : fill.Next order state)
    (shape : BookShape state.book)
    (absent : order.orderId ∉ state.book.orderIds)
    (orderId : String) :
    (state.afterFill order fill).heap.remainingQuantity orderId =
      state.heap.remainingQuantity orderId -
        tradedQuantity orderId [fill.trade] := by
  rw [tradedQuantity_singleton]
  by_cases isOrder : orderId = order.orderId
  · rw [isOrder, if_pos ((next.tradeOf.names_iff _).mpr (Or.inl rfl))]
    exact next.remaining_order shape absent
  · by_cases isMatching : orderId = fill.matching.orderId
    · rw [isMatching,
        if_pos ((next.tradeOf.names_iff _).mpr (Or.inr rfl))]
      exact Fill.Next.remaining_matching
    · have unnamed : ¬ fill.trade.Names orderId := by
        rw [next.tradeOf.names_iff]
        exact not_or.mpr ⟨Ne.symm isOrder, Ne.symm isMatching⟩
      rw [if_neg unnamed, sub_zero]
      exact Fill.Next.remaining_other isOrder isMatching

theorem step {fill : Fill}
    (matched : Matched order start trades reached)
    (shape : BookShape reached.book)
    (absent : order.orderId ∉ reached.book.orderIds)
    (next : fill.Next order reached) :
    Matched order start (trades ++ [fill.trade])
      (reached.afterFill order fill) where
  instrument :=
    (afterFill_instrumentId ..).trans matched.instrument
  own := (afterFill_levels ..).trans matched.own
  queue := by
    refine List.Sublist.trans ?_ matched.queue
    rw [next.restingOn_after, next.restingOn]
    split_ifs
    · exact List.sublist_cons_self _ _
    · exact List.Sublist.refl _
  orders := matched.orders
  recorded := by
    rw [← List.append_assoc, ← matched.recorded]
    rfl
  accounts := by
    intro orderId
    rw [afterFill_accounts next shape absent, matched.accounts,
      tradedQuantity_append, sub_sub]
  parties := by
    intro trade member
    rcases List.mem_append.mp member with old | new
    · exact matched.parties trade old
    · rcases List.mem_singleton.mp new with rfl
      have priced :=
        (shape.side order.side.opposite).ownPrice fill.best
          next.mem_levels fill.matching next.mem_orders
      have resting :
          fill.matching ∈
            reached.book.restingOn order.side.opposite :=
        OrderBook.mem_restingOn_iff.mpr
          ⟨fill.best, next.mem_levels, next.mem_orders⟩
      refine ⟨fill.matching, matched.queue.subset resting,
        fill.best.price, priced, next.accepted, ?_⟩
      rw [← matched.instrument, next.quantity]
      exact next.tradeOf

end Matched

end InternTradingGame
