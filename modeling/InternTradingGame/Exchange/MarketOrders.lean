import InternTradingGame.Exchange.BatchFills
import InternTradingGame.Exchange.BatchInstruments

/-!
# Market orders in a batch

The sort key of a market order is zero, which is behind all limit buy orders
and before all limit sell orders.  The pairing loop stops at the first order
without a price: a market sell order keeps it from pairing anything, market
buy orders only wait behind the others.  What is left is added to the book
in four groups: limit buy orders, market buy orders, market sell orders and
limit sell orders.
-/

namespace InternTradingGame

open Effects Clearing Sequences

/-! ## The pairing loop stops at a market order -/

section Stops

variable {unpriced : List Order} {sellOrder : Order}

/-- Market buy orders stay behind the others. -/
theorem pairOrders_append (noPrice : ∀ order ∈ unpriced, order.price = none)
    (iterations : Nat) (buys sells : List Order) :
    BatchMatchingEngine.pairOrders iterations (buys ++ unpriced) sells =
      (do
        let left ← BatchMatchingEngine.pairOrders iterations buys sells
        return (left.1 ++ unpriced, left.2)) := by
  induction iterations generalizing buys sells with
  | zero => rfl
  | succ iterations induction =>
      cases buys with
      | nil =>
          cases unpriced with
          | nil => cases sells <;> rfl
          | cons first rest =>
              cases sells with
              | nil => rfl
              | cons sellOrder sellOrders =>
                  have absent := noPrice first List.mem_cons_self
                  simp [BatchMatchingEngine.pairOrders, absent]
      | cons buyOrder buyOrders =>
          cases sells with
          | nil => rfl
          | cons sellOrder sellOrders =>
              simp only [List.cons_append, BatchMatchingEngine.pairOrders]
              cases buyOrder.price with
              | none => simp
              | some bid =>
                  cases sellOrder.price with
                  | none => simp
                  | some ask =>
                      by_cases crosses : ask ≤ bid
                      · simp only [if_pos crosses, bind_assoc]
                        refine bind_congr fun context => ?_
                        refine bind_congr fun trade => ?_
                        refine bind_congr fun _ => ?_
                        refine bind_congr fun settled => ?_
                        rw [← induction]
                        split_ifs <;> rfl
                      · simp [crosses]

/-- A market sell order at the head keeps the loop from pairing. -/
theorem pairOrders_unpriced (noPrice : sellOrder.price = none)
    (iterations : Nat) (buys rest : List Order) :
    BatchMatchingEngine.pairOrders (iterations + 1) buys
        (sellOrder :: rest) = pure (buys, sellOrder :: rest) := by
  cases buys with
  | nil => rfl
  | cons buyOrder buyOrders =>
      cases priced : buyOrder.price with
      | none => simp [BatchMatchingEngine.pairOrders, priced]
      | some bid => simp [BatchMatchingEngine.pairOrders, priced, noPrice]

end Stops

/-! ## The four groups of a batch -/

/-- The orders of a batch, in the order in which they are looked at. -/
structure BatchQueues where
  limitBuys : List Order
  marketBuys : List Order
  marketSells : List Order
  limitSells : List Order

namespace BatchQueues

/-- The buy orders, sorted. -/
def buys (queues : BatchQueues) : List Order :=
  queues.limitBuys ++ queues.marketBuys

/-- The sell orders, sorted. -/
def sells (queues : BatchQueues) : List Order :=
  queues.marketSells ++ queues.limitSells

/-- The groups of these orders. -/
def ofOrders (draw : String → ℚ) (orders : List Order) : BatchQueues :=
  let buys :=
    BatchMatchingEngine.randomizeSamePriceOrders draw true
      (orders.filter fun order => order.side = .buy)
  let sells :=
    BatchMatchingEngine.randomizeSamePriceOrders draw false
      (orders.filter fun order => order.side = .sell)
  { limitBuys := buys.filter fun order => order.IsLimitOrder
    marketBuys := buys.filter fun order => ! decide order.IsLimitOrder
    marketSells := sells.filter fun order => ! decide order.IsLimitOrder
    limitSells := sells.filter fun order => order.IsLimitOrder }

section OfOrders

variable (draw : String → ℚ) (orders : List Order)

theorem noPrice_of_not_limit {order : Order}
    (notLimit : ¬ order.IsLimitOrder) : order.price = none := by
  cases priced : order.price with
  | none => rfl
  | some limit =>
      exact absurd ((order.isLimitOrder_iff).mpr ⟨limit, priced⟩) notLimit

/-- Limit buy orders are sorted before market buy orders. -/
theorem ofOrders_buys :
    (ofOrders draw orders).buys =
      BatchMatchingEngine.randomizeSamePriceOrders draw true
        (orders.filter fun order => order.side = .buy) := by
  apply filter_append_filter
  have keys := List.pairwise_insertionSort
    (fun first second =>
      BatchMatchingEngine.sortKey draw true first ≤
        BatchMatchingEngine.sortKey draw true second)
    (orders.filter fun order => order.side = .buy)
  apply keys.imp
  intro first second before isLimit
  have secondLimit : second.IsLimitOrder := of_decide_eq_true isLimit
  apply decide_eq_true
  by_contra notLimit
  have prices := Prod.Lex.monotone_fst _ _ before
  simp only [BatchMatchingEngine.sortKey, secondLimit.price_eq,
    noPrice_of_not_limit notLimit, if_true] at prices
  exact absurd secondLimit.limit_positive
    (not_lt.mpr (neg_nonneg.mp prices))

/-- Market sell orders are sorted before limit sell orders. -/
theorem ofOrders_sells :
    (ofOrders draw orders).sells =
      BatchMatchingEngine.randomizeSamePriceOrders draw false
        (orders.filter fun order => order.side = .sell) := by
  have keys := List.pairwise_insertionSort
    (fun first second =>
      BatchMatchingEngine.sortKey draw false first ≤
        BatchMatchingEngine.sortKey draw false second)
    (orders.filter fun order => order.side = .sell)
  have front := keys.imp (S := fun first second =>
    (! decide second.IsLimitOrder) = true →
      (! decide first.IsLimitOrder) = true)
    (by
      intro first second before notLimit
      have secondMarket : ¬ second.IsLimitOrder := by
        simpa using notLimit
      by_contra isLimit
      have firstLimit : first.IsLimitOrder := by
        simpa using isLimit
      have prices := Prod.Lex.monotone_fst _ _ before
      simp only [BatchMatchingEngine.sortKey, firstLimit.price_eq,
        noPrice_of_not_limit secondMarket] at prices
      exact absurd firstLimit.limit_positive (not_lt.mpr prices))
  have split := filter_append_filter front
  simp only [Bool.not_not] at split
  exact split

end OfOrders

end BatchQueues

/-- The groups of the collected orders, and the book they meet. -/
structure QueueFacts (instrumentId : String) (start : BookState)
    (queues : BatchQueues) : Prop where
  invariant : BookInv start
  named : start.book.instrumentId = instrumentId
  distinct : ((queues.buys ++ queues.sells).map Order.orderId).Nodup
  isBuy : ∀ order ∈ queues.buys, order.side = .buy
  isSell : ∀ order ∈ queues.sells, order.side = .sell
  limits : ∀ order ∈ queues.limitBuys ++ queues.limitSells,
    order.IsLimitOrder
  noPrice : ∀ order ∈ queues.marketBuys ++ queues.marketSells,
    order.price = none
  addable : ∀ order ∈ queues.buys ++ queues.sells, Addable order start
  whole : ∀ order ∈ queues.buys ++ queues.sells, Whole order.quantity
  unfilled : ∀ order ∈ queues.buys ++ queues.sells,
    start.heap.remaining order = order.quantity
  bestBuys : queues.limitBuys.Pairwise fun first second =>
    second.limit ≤ first.limit
  bestSells : queues.limitSells.Pairwise fun first second =>
    first.limit ≤ second.limit

section Facts

variable {instrumentId : String} {start : BookState}
  {orders : List Order} {queues : BatchQueues} {order : Order}

theorem BatchQueues.ofOrders_perm (draw : String → ℚ)
    (orders : List Order) :
    orders.Perm
      ((ofOrders draw orders).buys ++ (ofOrders draw orders).sells) := by
  rw [ofOrders_buys, ofOrders_sells]
  exact sides_perm draw orders

/-- The collected orders of an instrument, in their groups. -/
theorem InTurn.queueFacts (turn : InTurn instrumentId orders start)
    (draw : String → ℚ) :
    QueueFacts instrumentId start (BatchQueues.ofOrders draw orders) := by
  have perm := BatchQueues.ofOrders_perm draw orders
  have onSide : ∀ (descending : Bool) (side : OrderSide),
      ∀ order ∈ BatchMatchingEngine.randomizeSamePriceOrders draw
          descending (orders.filter fun order => order.side = side),
        order.side = side := by
    intro descending side order member
    have inFilter := (randomize_perm draw descending _).mem_iff.mp member
    exact of_decide_eq_true (List.mem_filter.mp inFilter).2
  have sorted : ∀ (descending : Bool) (side : OrderSide),
      ((BatchMatchingEngine.randomizeSamePriceOrders draw descending
        (orders.filter fun order => order.side = side)).filter
          fun order => order.IsLimitOrder).Pairwise fun first second =>
        if descending = true then
          second.limit ≤ first.limit
        else
          first.limit ≤ second.limit := by
    intro descending side
    have keys := List.pairwise_insertionSort
      (fun first second =>
        BatchMatchingEngine.sortKey draw descending first ≤
          BatchMatchingEngine.sortKey draw descending second)
      (orders.filter fun order => order.side = side)
    apply (keys.sublist List.filter_sublist).imp_of_mem
    intro first second firstMember secondMember before
    exact limits_of_sortKey draw
      (of_decide_eq_true (List.mem_filter.mp firstMember).2)
      (of_decide_eq_true (List.mem_filter.mp secondMember).2) before
  constructor
  · exact turn.invariant
  · exact turn.named
  · exact (perm.map Order.orderId).nodup_iff.mp turn.distinct
  · rw [BatchQueues.ofOrders_buys]
    exact onSide true .buy
  · rw [BatchQueues.ofOrders_sells]
    exact onSide false .sell
  · intro order member
    rcases List.mem_append.mp member with buy | sell
    · exact of_decide_eq_true (List.mem_filter.mp buy).2
    · exact of_decide_eq_true (List.mem_filter.mp sell).2
  · intro order member
    apply BatchQueues.noPrice_of_not_limit
    rcases List.mem_append.mp member with buy | sell
    · simpa using (List.mem_filter.mp buy).2
    · simpa using (List.mem_filter.mp sell).2
  · intro order member
    have inOrders := perm.mem_iff.mpr member
    exact ⟨(turn.instrument order inOrders).trans turn.named.symm,
      turn.absent order inOrders⟩
  · exact fun order member => turn.whole order (perm.mem_iff.mpr member)
  · exact fun order member =>
      turn.unfilled order (perm.mem_iff.mpr member)
  · exact sorted true .buy
  · exact sorted false .sell

namespace QueueFacts

/-- An order of one of the groups is an order of the batch. -/
theorem mem_limits (member : order ∈ queues.limitBuys ++ queues.limitSells) :
    order ∈ queues.buys ++ queues.sells := by
  rcases List.mem_append.mp member with buy | sell
  · exact List.mem_append_left _ (List.mem_append_left _ buy)
  · exact List.mem_append_right _ (List.mem_append_right _ sell)

theorem fillable (facts : QueueFacts instrumentId start queues)
    (member : order ∈ queues.buys ++ queues.sells) :
    order.Fillable start.heap := by
  have equal := facts.unfilled order member
  constructor
  · rw [equal]
    exact order.quantity_positive.le
  · exact equal.le
  · rw [equal]
    exact facts.whole order member

/-- The limit orders can be paired. -/
theorem batchSides (facts : QueueFacts instrumentId start queues) :
    BatchSides start.heap queues.limitBuys queues.limitSells where
  distinct := by
    refine facts.distinct.sublist (List.Sublist.map _ ?_)
    exact (List.sublist_append_left _ _).append
      (List.sublist_append_right _ _)
  limits := facts.limits
  whole := fun _ member => (facts.fillable (mem_limits member)).whole
  unfilled := by
    intro order member
    rw [facts.unfilled order (mem_limits member)]
    exact order.quantity_positive
  bestBuys := facts.bestBuys
  bestSells := facts.bestSells

end QueueFacts

end Facts

/-! ## Pairing, when there are market orders -/

/-- What the pairing loop has done: nothing past a market sell order. -/
structure PairedLimits (start : BookState) (queues : BatchQueues)
    (paired : BookState) : Prop where
  filled : FilledFairly start.heap Order.limit queues.limitBuys
    queues.limitSells paired.heap
  whole : ∀ order ∈ queues.limitBuys ++ queues.limitSells,
    Whole (paired.heap.remaining order)
  same : SameShape start.book paired.book
  levels : ∀ side, paired.book.levels side = start.book.levels side
  exhausted : queues.marketSells = [] →
    Exhausted Order.limit start.heap.remaining
      (filledSince start.heap paired.heap) queues.limitBuys
      queues.limitSells
  idle : queues.marketSells ≠ [] → paired.heap = start.heap

section Paired

variable {instrumentId : String} {start : BookState}
  {queues : BatchQueues} {context : BatchContext}

/-- What the loop leaves of the groups. -/
def BatchQueues.left (queues : BatchQueues) (heap : Heap) :
    List Order × List Order :=
  (unfilledIn heap queues.limitBuys ++ queues.marketBuys,
    queues.marketSells ++ unfilledIn heap queues.limitSells)

/-- The pairing loop pairs the limit orders, or nothing. -/
theorem pairOrders_queues (facts : QueueFacts instrumentId start queues)
    (has : HasBook instrumentId context start) {iterations : Nat}
    (enough : queues.buys.length + queues.sells.length < iterations) :
    Ends
      (BatchMatchingEngine.pairOrders iterations queues.buys queues.sells)
      context
      (fun left reached => ∃ paired,
        HasBook instrumentId reached paired ∧
          PairedLimits start queues paired ∧
          left = queues.left paired.heap)
      (fun _ _ => False) := by
  have sides := facts.batchSides
  cases sells : queues.marketSells with
  | nil =>
      have onlyLimits : queues.sells = queues.limitSells := by
        rw [BatchQueues.sells, sells, List.nil_append]
      rw [onlyLimits, BatchQueues.buys,
        pairOrders_append fun order member =>
          facts.noPrice order (List.mem_append_left _ member)]
      rw [BatchQueues.buys, onlyLimits, List.length_append] at enough
      rw [← has.heap] at sides
      apply (pairOrders_cleared context sides
        ((Nat.add_le_add_right (Nat.le_add_right _ _) _).trans_lt enough)
        (fun _ => True) trivial fun _ _ _ _ _ _ => trivial).bind
      rintro left reached ⟨cleared, _⟩
      rcases cleared.pairing.levels _ _ has.found with
        ⟨book, found, same, levels⟩
      have filled := cleared.pairing.filled
      have exhausted := cleared.exhausted
      rw [has.heap] at filled exhausted
      refine ⟨⟨reached.market.heap, book⟩, ⟨found, rfl⟩, ?_, ?_⟩
      · exact ⟨filled, cleared.pairing.whole, same, levels,
          fun _ => exhausted, fun some_ => absurd sells some_⟩
      · rw [BatchQueues.left, cleared.pairing.buying,
          cleared.pairing.selling, sells, List.nil_append]
  | cons first rest =>
      have absent : first.price = none := by
        apply facts.noPrice
        rw [sells]
        exact List.mem_append_right _ List.mem_cons_self
      have split : queues.sells = first :: (rest ++ queues.limitSells) := by
        rw [BatchQueues.sells, sells, List.cons_append]
      cases iterations with
      | zero => exact absurd enough (Nat.not_lt_zero _)
      | succ iterations =>
          rw [split, pairOrders_unpriced absent]
          have all : ∀ {orders : List Order},
              orders.Sublist (queues.limitBuys ++ queues.limitSells) →
                unfilledIn start.heap orders = orders := by
            intro orders sublist
            apply List.filter_eq_self.mpr
            intro order member
            exact decide_eq_true
              (sides.unfilled order (sublist.subset member)).ne'
          refine ⟨start, has, ?_, ?_⟩
          · refine ⟨FilledFairly.start fun order member =>
                (sides.unfilled order member).le, sides.whole,
              SameShape.refl _, fun _ => rfl, ?_, fun _ => rfl⟩
            intro empty
            rw [sells] at empty
            cases empty
          · rw [BatchQueues.left, all (List.sublist_append_left _ _),
              all (List.sublist_append_right _ _), sells,
              List.cons_append]
            rfl

end Paired

end InternTradingGame
