import InternTradingGame.Exchange.BatchClearing

/-!
# A batch is fair up to ties

Each clearing of a batch is fair and exhausted, so what is filled at every
limit depends on the quantities at the limits only.  The order of submission
and the numbers drawn for the ties decide who is served, and nothing else.
-/

namespace InternTradingGame

open Effects Clearing

/-! ## Equal limits -/

/-- At every limit the two lists have the same in all. -/
def SameAtLimits (amount : Order → ℚ) (orders : List Order)
    (other : Order → ℚ) (others : List Order) : Prop :=
  ∀ value, totalOf amount (fun order => order.limit = value) orders =
    totalOf other (fun order => order.limit = value) others

namespace SameAtLimits

variable {amount other more otherMore : Order → ℚ}
  {orders others further otherFurther : List Order}

/-- Ranks which tell the limits apart tell the totals at the limits. -/
theorem of_fronts {P : Type*} [LinearOrder P] {through : ℚ → P}
    (injective : Function.Injective through)
    (same : SameFronts (fun order : Order => through order.limit) amount
      orders (fun order : Order => through order.limit) other others) :
    SameAtLimits amount orders other others := by
  intro value
  have atRank := same.at_rank (through value)
  simp only [injective.eq_iff] at atRank
  exact atRank

theorem of_perm (perm : orders.Perm others)
    (agree : ∀ order ∈ orders, amount order = other order) :
    SameAtLimits amount orders other others :=
  fun _ => (totalOf_congr agree).trans (totalOf_perm perm)

theorem congr {amount' other' : Order → ℚ}
    (same : SameAtLimits amount orders other others)
    (left : ∀ order ∈ orders, amount' order = amount order)
    (right : ∀ order ∈ others, other' order = other order) :
    SameAtLimits amount' orders other' others := by
  intro value
  rw [totalOf_congr left, totalOf_congr right]
  exact same value

theorem add (same : SameAtLimits amount orders other others)
    (parts : SameAtLimits more orders otherMore others) :
    SameAtLimits (fun order => amount order + more order) orders
      (fun order => other order + otherMore order) others := by
  intro value
  rw [totalOf_add, totalOf_add, same value, parts value]

theorem sub (same : SameAtLimits amount orders other others)
    (parts : SameAtLimits more orders otherMore others) :
    SameAtLimits (fun order => amount order - more order) orders
      (fun order => other order - otherMore order) others := by
  intro value
  rw [totalOf_sub, totalOf_sub, same value, parts value]

theorem append (same : SameAtLimits amount orders other others)
    (rest : SameAtLimits amount further other otherFurther) :
    SameAtLimits amount (orders ++ further) other
      (others ++ otherFurther) := by
  intro value
  rw [totalOf_append, totalOf_append, same value, rest value]

end SameAtLimits

/-! ## The accounts of one run -/

section Accounts

variable {instrumentId : String} {start reached : BookState}
  {paired bought : Heap} {buys sells : List Order} {order : Order}

namespace BatchCleared

/-- What the clearings leave alone. -/
theorem untouched (facts : BatchFacts instrumentId start buys sells)
    (cleared : BatchCleared start buys sells paired bought reached) :
    (∀ order ∈ start.book.resting,
        paired.remaining order = start.heap.remaining order) ∧
      (∀ order ∈ sells ++ start.book.restingOn .buy,
        bought.remaining order = paired.remaining order) ∧
      ∀ order ∈ buys ++ start.book.restingOn .sell,
        reached.heap.remaining order = bought.remaining order := by
  refine ⟨?_, ?_, ?_⟩
  · intro order member
    apply cleared.pairing.filled.unchanged
    intro other inBatch
    exact (orderId_apart facts.distinct inBatch member).symm
  · intro order member
    apply cleared.buying.filled.unchanged
    intro other inBuying
    exact facts.apart member inBuying
  · intro order member
    apply cleared.selling.filled.unchanged
    intro other inSelling
    exact (facts.apart inSelling member).symm

/-- A buy order is filled by sell orders and by those which rested. -/
theorem filled_buy (facts : BatchFacts instrumentId start buys sells)
    (cleared : BatchCleared start buys sells paired bought reached)
    (member : order ∈ buys) :
    filledSince start.heap reached.heap order =
      filledSince start.heap paired order +
        filledSince paired bought order := by
  have last := (cleared.untouched facts).2.2 order
    (List.mem_append_left _ member)
  rw [filledSince, filledSince, filledSince, last]
  ring

theorem filled_sell (facts : BatchFacts instrumentId start buys sells)
    (cleared : BatchCleared start buys sells paired bought reached)
    (member : order ∈ sells) :
    filledSince start.heap reached.heap order =
      filledSince start.heap paired order +
        filledSince bought reached.heap order := by
  have middle := (cleared.untouched facts).2.1 order
    (List.mem_append_left _ member)
  rw [filledSince, filledSince, filledSince, middle]
  ring

/-- What the queues of the book reached have left. -/
theorem queue_totals (facts : BatchFacts instrumentId start buys sells)
    (cleared : BatchCleared start buys sells paired bought reached)
    (keep : Order → Bool) :
    totalOf reached.heap.remaining keep (reached.book.restingOn .buy) =
        totalOf reached.heap.remaining keep
          (start.book.restingOn .buy ++ buys) ∧
      totalOf reached.heap.remaining keep
          (reached.book.restingOn .sell) =
        totalOf reached.heap.remaining keep
          (start.book.restingOn .sell ++ sells) := by
  have filledBuys : ∀ order ∈ buys, order.IsFilled paired →
      reached.heap.remaining order = 0 := by
    intro order member filled
    rw [(cleared.untouched facts).2.2 order
      (List.mem_append_left _ member)]
    exact cleared.buying.filled.stays_filled
      (List.mem_append_left _ member) filled
  have filledSells : ∀ order ∈ sells, order.IsFilled bought →
      reached.heap.remaining order = 0 :=
    fun order member filled =>
      cleared.selling.filled.stays_filled
        (List.mem_append_left _ member) filled
  constructor
  · rw [totalOf_perm cleared.buyQueue,
      totalOf_unfilledIn fun _ _ filled => filled, totalOf_append,
      totalOf_unfilledIn filledBuys, totalOf_append]
  · rw [totalOf_perm cleared.sellQueue,
      totalOf_unfilledIn fun _ _ filled => filled, totalOf_append,
      totalOf_unfilledIn filledSells, totalOf_append]

/-- A worse buy order is not served while a better one is unfilled. -/
theorem buy_priority (facts : BatchFacts instrumentId start buys sells)
    (cleared : BatchCleared start buys sells paired bought reached)
    {first second : Order} (firstMember : first ∈ buys)
    (secondMember : second ∈ buys) (better : second.limit < first.limit)
    (unfilled : ¬ first.IsFilled reached.heap) :
    filledSince start.heap reached.heap second = 0 := by
  have last := (cleared.untouched facts).2.2 first
    (List.mem_append_left _ firstMember)
  rw [Order.IsFilled, last] at unfilled
  have before := cleared.buying.filled.unfilled_before
    (List.mem_append_left _ firstMember) unfilled
  have closer : OrderDual.toDual first.limit <
      OrderDual.toDual second.limit := OrderDual.toDual_lt_toDual.mpr better
  have pairing := cleared.pairing.filled.fair.buying
  have buying := cleared.buying.filled.fair.buying
  have notPaired : ¬ 0 < filledSince start.heap paired second := by
    intro served
    exact before (filled_iff.mp (pairing.prioritized first firstMember
      second secondMember closer served))
  have notBought : ¬ 0 < filledSince paired bought second := by
    intro served
    exact unfilled (filled_iff.mp (buying.prioritized first firstMember
      second secondMember closer served))
  rw [cleared.filled_buy facts secondMember,
    le_antisymm (not_lt.mp notPaired)
      (pairing.nonnegative second secondMember),
    le_antisymm (not_lt.mp notBought)
      (buying.nonnegative second secondMember), add_zero]

/-- A worse sell order is not served while a better one is unfilled. -/
theorem sell_priority (facts : BatchFacts instrumentId start buys sells)
    (cleared : BatchCleared start buys sells paired bought reached)
    {first second : Order} (firstMember : first ∈ sells)
    (secondMember : second ∈ sells) (better : first.limit < second.limit)
    (unfilled : ¬ first.IsFilled reached.heap) :
    filledSince start.heap reached.heap second = 0 := by
  have before := cleared.selling.filled.unfilled_before
    (List.mem_append_left _ firstMember) unfilled
  rw [Order.IsFilled, (cleared.untouched facts).2.1 first
    (List.mem_append_left _ firstMember)] at before
  have closer : OrderDual.toDual (-first.limit) <
      OrderDual.toDual (-second.limit) :=
    OrderDual.toDual_lt_toDual.mpr (neg_lt_neg better)
  have pairing := cleared.pairing.filled.fair.selling
  have selling := cleared.selling.filled.fair.buying
  have notPaired : ¬ 0 < filledSince start.heap paired second := by
    intro served
    exact before (filled_iff.mp (pairing.prioritized first firstMember
      second secondMember better served))
  have notSold : ¬ 0 < filledSince bought reached.heap second := by
    intro served
    exact unfilled (filled_iff.mp (selling.prioritized first firstMember
      second secondMember closer served))
  rw [cleared.filled_sell facts secondMember,
    le_antisymm (not_lt.mp notPaired)
      (pairing.nonnegative second secondMember),
    le_antisymm (not_lt.mp notSold)
      (selling.nonnegative second secondMember), add_zero]

/-- All trades of the batch, at the limits of those who sold or rested. -/
theorem exists_trades
    (cleared : BatchCleared start buys sells paired bought reached) :
    ∃ made, reached.heap.trades = start.heap.trades ++ made ∧
      ∀ keep, volumeOf made keep =
        totalOf (filledSince start.heap paired)
            (fun order => keep order.limit) sells +
          totalOf (filledSince paired bought)
            (fun order => keep order.limit)
            (start.book.restingOn .sell) +
          totalOf (filledSince bought reached.heap)
            (fun order => keep order.limit)
            (start.book.restingOn .buy) := by
  rcases cleared.pairing.filled.trades with ⟨pairs, first, pairVolumes⟩
  rcases cleared.buying.filled.trades with ⟨buying, second, buyVolumes⟩
  rcases cleared.selling.filled.trades with ⟨selling, third, sellVolumes⟩
  refine ⟨pairs ++ buying ++ selling, ?_, ?_⟩
  · rw [third, second, first, List.append_assoc, List.append_assoc,
      List.append_assoc]
  · intro keep
    rw [← pairVolumes, ← buyVolumes, ← sellVolumes, volumeOf,
      totalOf_append, totalOf_append]
    rfl

end BatchCleared

end Accounts

/-! ## Two runs -/

section TwoRuns

variable {instrumentId : String} {start reached otherReached : BookState}
  {paired bought otherPaired otherBought : Heap}
  {buys sells otherBuys otherSells : List Order}

/-- What the three clearings of two runs have in common. -/
structure AlikeCleared (start : BookState)
    (buys sells otherBuys otherSells : List Order)
    (paired bought otherPaired otherBought : Heap)
    (reached otherReached : BookState) : Prop where
  pairedBuys : SameAtLimits (filledSince start.heap paired) buys
    (filledSince start.heap otherPaired) otherBuys
  pairedSells : SameAtLimits (filledSince start.heap paired) sells
    (filledSince start.heap otherPaired) otherSells
  buying : SameAtLimits (filledSince paired bought) buys
    (filledSince otherPaired otherBought) otherBuys
  asks : SameAtLimits (filledSince paired bought)
    (start.book.restingOn .sell) (filledSince otherPaired otherBought)
    (start.book.restingOn .sell)
  selling : SameAtLimits (filledSince bought reached.heap) sells
    (filledSince otherBought otherReached.heap) otherSells
  bids : SameAtLimits (filledSince bought reached.heap)
    (start.book.restingOn .buy)
    (filledSince otherBought otherReached.heap)
    (start.book.restingOn .buy)

theorem remaining_eq_sub (base now : Heap) (order : Order) :
    now.remaining order =
      base.remaining order - filledSince base now order := by
  rw [filledSince, sub_sub_cancel]

theorem alikeCleared
    (facts : BatchFacts instrumentId start buys sells)
    (otherFacts : BatchFacts instrumentId start otherBuys otherSells)
    (cleared : BatchCleared start buys sells paired bought reached)
    (otherCleared : BatchCleared start otherBuys otherSells otherPaired
      otherBought otherReached)
    (buyPerm : buys.Perm otherBuys) (sellPerm : sells.Perm otherSells) :
    AlikeCleared start buys sells otherBuys otherSells paired bought
      otherPaired otherBought reached otherReached := by
  have untouched := cleared.untouched facts
  have otherUntouched := otherCleared.untouched otherFacts
  have resting : ∀ {side} order, order ∈ start.book.restingOn side →
      order ∈ start.book.resting :=
    fun _ member => OrderBook.mem_resting_of_mem member
  rcases cleared.pairing.filled.fair.determined cleared.pairing.exhausted
      otherCleared.pairing.filled.fair otherCleared.pairing.exhausted
      (SameFronts.of_perm buyPerm) (SameFronts.of_perm sellPerm) with
    ⟨pairedBuys, pairedSells⟩
  have buyCapacity := ((SameFronts.of_perm buyPerm).sub pairedBuys).congr
    (fun order _ => remaining_eq_sub start.heap paired order)
    (fun order _ => remaining_eq_sub start.heap otherPaired order)
  have askCapacity : SameFronts OrderSide.buy.worth paired.remaining
      (start.book.restingOn .sell) OrderSide.buy.worth
      otherPaired.remaining (start.book.restingOn .sell) :=
    (SameFronts.of_perm (List.Perm.refl _)).congr
      (fun order member => untouched.1 order (resting order member))
      (fun order member => otherUntouched.1 order (resting order member))
  rcases cleared.buying.filled.fair.determined cleared.buying.exhausted
      otherCleared.buying.filled.fair otherCleared.buying.exhausted
      buyCapacity askCapacity with ⟨buying, asks⟩
  have reversed : Monotone fun limit : ℚ => OrderDual.toDual (-limit) :=
    fun _ _ closer =>
      OrderDual.toDual_le_toDual.mpr (neg_le_neg closer)
  have sellCapacity : SameFronts (bidRank OrderSide.sell.worth)
      bought.remaining sells (bidRank OrderSide.sell.worth)
      otherBought.remaining otherSells :=
    (((SameFronts.of_perm sellPerm).sub pairedSells).map reversed).congr
      (fun order member =>
        (untouched.2.1 order (List.mem_append_left _ member)).trans
          (remaining_eq_sub start.heap paired order))
      (fun order member =>
        (otherUntouched.2.1 order (List.mem_append_left _ member)).trans
          (remaining_eq_sub start.heap otherPaired order))
  have bidCapacity : SameFronts OrderSide.sell.worth bought.remaining
      (start.book.restingOn .buy) OrderSide.sell.worth
      otherBought.remaining (start.book.restingOn .buy) :=
    (SameFronts.of_perm (List.Perm.refl _)).congr
      (fun order member =>
        (untouched.2.1 order (List.mem_append_right _ member)).trans
          (untouched.1 order (resting order member)))
      (fun order member =>
        (otherUntouched.2.1 order (List.mem_append_right _ member)).trans
          (otherUntouched.1 order (resting order member)))
  rcases cleared.selling.filled.fair.determined cleared.selling.exhausted
      otherCleared.selling.filled.fair otherCleared.selling.exhausted
      sellCapacity bidCapacity with ⟨selling, bids⟩
  constructor
  · exact .of_fronts OrderDual.toDual.injective pairedBuys
  · exact @SameAtLimits.of_fronts _ _ _ _ _ _ id Function.injective_id
      pairedSells
  · exact .of_fronts OrderDual.toDual.injective buying
  · exact @SameAtLimits.of_fronts _ _ _ _ _ _ id Function.injective_id
      asks
  · exact .of_fronts (OrderDual.toDual.injective.comp neg_injective)
      selling
  · exact .of_fronts neg_injective bids

namespace AlikeCleared

variable
  (alike : AlikeCleared start buys sells otherBuys otherSells paired
    bought otherPaired otherBought reached otherReached)
  (facts : BatchFacts instrumentId start buys sells)
  (otherFacts : BatchFacts instrumentId start otherBuys otherSells)
  (cleared : BatchCleared start buys sells paired bought reached)
  (otherCleared : BatchCleared start otherBuys otherSells otherPaired
    otherBought otherReached)

include alike facts otherFacts cleared otherCleared

theorem filledBuys :
    SameAtLimits (filledSince start.heap reached.heap) buys
      (filledSince start.heap otherReached.heap) otherBuys :=
  (alike.pairedBuys.add alike.buying).congr
    (fun _ member => cleared.filled_buy facts member)
    (fun _ member => otherCleared.filled_buy otherFacts member)

theorem filledSells :
    SameAtLimits (filledSince start.heap reached.heap) sells
      (filledSince start.heap otherReached.heap) otherSells :=
  (alike.pairedSells.add alike.selling).congr
    (fun _ member => cleared.filled_sell facts member)
    (fun _ member => otherCleared.filled_sell otherFacts member)

/-- At every limit the resting buy orders have the same left. -/
theorem bidsLeft :
    SameAtLimits reached.heap.remaining (start.book.restingOn .buy)
      otherReached.heap.remaining (start.book.restingOn .buy) := by
  have untouched := cleared.untouched facts
  have otherUntouched := otherCleared.untouched otherFacts
  apply ((SameAtLimits.of_perm (List.Perm.refl _)
    fun order _ => @rfl _ (start.heap.remaining order)).sub
      alike.bids).congr
  · intro order member
    rw [remaining_eq_sub bought reached.heap,
      untouched.2.1 order (List.mem_append_right _ member),
      untouched.1 order (OrderBook.mem_resting_of_mem member)]
  · intro order member
    rw [remaining_eq_sub otherBought otherReached.heap,
      otherUntouched.2.1 order (List.mem_append_right _ member),
      otherUntouched.1 order (OrderBook.mem_resting_of_mem member)]

/-- At every limit the resting sell orders have the same left. -/
theorem asksLeft :
    SameAtLimits reached.heap.remaining (start.book.restingOn .sell)
      otherReached.heap.remaining (start.book.restingOn .sell) := by
  have untouched := cleared.untouched facts
  have otherUntouched := otherCleared.untouched otherFacts
  apply ((SameAtLimits.of_perm (List.Perm.refl _)
    fun order _ => @rfl _ (start.heap.remaining order)).sub
      alike.asks).congr
  · intro order member
    rw [untouched.2.2 order (List.mem_append_right _ member),
      remaining_eq_sub paired bought,
      untouched.1 order (OrderBook.mem_resting_of_mem member)]
  · intro order member
    rw [otherUntouched.2.2 order (List.mem_append_right _ member),
      remaining_eq_sub otherPaired otherBought,
      otherUntouched.1 order (OrderBook.mem_resting_of_mem member)]

/-- At every limit the queues of the two books have the same left. -/
theorem queues (buyPerm : buys.Perm otherBuys)
    (sellPerm : sells.Perm otherSells) (side : OrderSide) :
    SameAtLimits reached.heap.remaining (reached.book.restingOn side)
      otherReached.heap.remaining (otherReached.book.restingOn side) := by
  have left : ∀ {orders others : List Order}, orders.Perm others →
      SameAtLimits (filledSince start.heap reached.heap) orders
        (filledSince start.heap otherReached.heap) others →
      SameAtLimits reached.heap.remaining orders
        otherReached.heap.remaining others := by
    intro orders others perm filled
    exact ((SameAtLimits.of_perm perm
      fun order _ => @rfl _ (start.heap.remaining order)).sub
        filled).congr
      (fun order _ => remaining_eq_sub start.heap reached.heap order)
      (fun order _ => remaining_eq_sub start.heap otherReached.heap order)
  intro value
  cases side with
  | buy =>
      rw [(cleared.queue_totals facts _).1,
        (otherCleared.queue_totals otherFacts _).1]
      exact (alike.bidsLeft facts otherFacts cleared otherCleared).append
        (left buyPerm
          (alike.filledBuys facts otherFacts cleared otherCleared)) value
  | sell =>
      rw [(cleared.queue_totals facts _).2,
        (otherCleared.queue_totals otherFacts _).2]
      exact (alike.asksLeft facts otherFacts cleared otherCleared).append
        (left sellPerm
          (alike.filledSells facts otherFacts cleared otherCleared)) value

/-- The two books report the same depth. -/
theorem depth (buyPerm : buys.Perm otherBuys)
    (sellPerm : sells.Perm otherSells) (count : Nat) :
    reached.book.depthSnapshot count =
      otherReached.book.depthSnapshot count := by
  have tables : ∀ side,
      priceTable reached.heap side (reached.book.restingOn side) =
        priceTable otherReached.heap side
          (otherReached.book.restingOn side) := by
    intro side
    apply priceTable_determined cleared.invariant otherCleared.invariant
    intro price
    rw [remainingAt_eq_totalOf cleared.invariant,
      remainingAt_eq_totalOf otherCleared.invariant]
    exact alike.queues facts otherFacts cleared otherCleared buyPerm
      sellPerm side price
  rw [cleared.invariant.reportsExactly.depth,
    otherCleared.invariant.reportsExactly.depth, tables, tables]

end AlikeCleared

end TwoRuns

/-! ## The fairness of a batch -/

/-- What has been filled on one side at one limit. -/
def filledAt (start reached : Heap) (orders : List Order)
    (side : OrderSide) (limit : ℚ) : ℚ :=
  totalOf (filledSince start reached)
    (fun order => order.side = side ∧ order.limit = limit) orders

/-- What two runs of a batch have in common. -/
structure SameOutcome (instrumentId : String) (orders : List Order)
    (context reached otherReached : BatchContext) : Prop where
  filled : ∀ side limit,
    filledAt context.market.heap reached.market.heap orders side limit =
      filledAt context.market.heap otherReached.market.heap orders side
        limit
  traded : ∃ made otherMade,
    reached.market.heap.trades = context.market.heap.trades ++ made ∧
      otherReached.market.heap.trades =
        context.market.heap.trades ++ otherMade ∧
      ∀ limit, volumeOf made (fun price => price = limit) =
        volumeOf otherMade fun price => price = limit
  depth : ∃ book otherBook,
    reached.market.orderBooks.get? instrumentId = some book ∧
      otherReached.market.orderBooks.get? instrumentId =
        some otherBook ∧
      ∀ count, book.depthSnapshot count = otherBook.depthSnapshot count

/-- Nobody is served while a strictly better order has quantity left. -/
def StrictPriority (orders : List Order)
    (context reached : BatchContext) : Prop :=
  ∀ first ∈ orders, ∀ second ∈ orders, first.side = second.side →
    first.side.Better first.limit second.limit →
    ¬ first.IsFilled reached.market.heap →
      filledSince context.market.heap reached.market.heap second = 0

/-- The two runs return, have the same outcome and respect the prices. -/
def FairUpToTies (instrumentId : String) (draw otherDraw : String → ℚ)
    (orders others : List Order) (context : BatchContext) : Prop :=
  ∃ results reached otherResults otherReached,
    executeOrders draw orders context = .ok results reached ∧
      executeOrders otherDraw others context =
        .ok otherResults otherReached ∧
      SameOutcome instrumentId orders context reached otherReached ∧
      StrictPriority orders context reached ∧
      StrictPriority others context otherReached

section Fairness

variable {instrumentId : String} {orders others : List Order}
  {context reached otherReached : BatchContext}
  {start after otherAfter : BookState} {buys sells : List Order}
  {paired bought otherPaired otherBought : Heap}

theorem sorted_perm (draw : String → ℚ) (descending : Bool)
    (side : OrderSide) (perm : orders.Perm others) :
    (BatchMatchingEngine.randomizeSamePriceOrders draw descending
        (others.filter fun order => order.side = side)).Perm
      (orders.filter fun order => order.side = side) :=
  (randomize_perm draw descending _).trans (perm.symm.filter _)

theorem filledAt_eq {base now : Heap} {side : OrderSide}
    (perm : buys.Perm (orders.filter fun order => order.side = side))
    (limit : ℚ) :
    filledAt base now orders side limit =
      totalOf (filledSince base now)
        (fun order => order.limit = limit) buys := by
  rw [totalOf_perm perm, filledAt, totalOf, totalOf, List.filter_filter]
  congr 2
  apply List.filter_congr
  intro order _
  rw [Bool.decide_and, Bool.and_comm]

/-- Nobody is served before a better order, on either side. -/
theorem BatchCleared.strictPriority
    (facts : BatchFacts instrumentId start buys sells)
    (cleared : BatchCleared start buys sells paired bought after)
    (buyPerm : buys.Perm (orders.filter fun order => order.side = .buy))
    (sellPerm :
      sells.Perm (orders.filter fun order => order.side = .sell))
    (heap : context.market.heap = start.heap)
    (has : HasBook instrumentId reached after) :
    StrictPriority orders context reached := by
  intro first firstMember second secondMember same better unfilled
  rw [heap, has.heap] at *
  have onSide : ∀ {order side}, order ∈ orders → order.side = side →
      order ∈ orders.filter fun order => order.side = side :=
    fun member isSide => List.mem_filter.mpr
      ⟨member, decide_eq_true isSide⟩
  cases side : first.side with
  | buy =>
      rw [side] at same better
      exact cleared.buy_priority facts
        (buyPerm.mem_iff.mpr (onSide firstMember side))
        (buyPerm.mem_iff.mpr (onSide secondMember same.symm)) better
        unfilled
  | sell =>
      rw [side] at same better
      exact cleared.sell_priority facts
        (sellPerm.mem_iff.mpr (onSide firstMember side))
        (sellPerm.mem_iff.mpr (onSide secondMember same.symm)) better
        unfilled

theorem CollectedFor.perm
    (collected : CollectedFor instrumentId start orders)
    (perm : orders.Perm others) :
    CollectedFor instrumentId start others where
  distinct := (perm.map Order.orderId).nodup_iff.mp collected.distinct
  limits order member :=
    collected.limits order (perm.mem_iff.mpr member)
  whole order member := collected.whole order (perm.mem_iff.mpr member)
  instrument order member :=
    collected.instrument order (perm.mem_iff.mpr member)
  unfilled order member :=
    collected.unfilled order (perm.mem_iff.mpr member)
  absent order member :=
    collected.absent order (perm.mem_iff.mpr member)

end Fairness

/--
Two runs of a batch which differ in the order of submission and in what is
drawn for the ties fill the same at every limit, trade the same at every
price and leave the same depth; and both respect the prices strictly.
-/
theorem batch_fairUpToTies (instrumentId : String)
    (draw otherDraw : String → ℚ) (orders others : List Order)
    (context : BatchContext) (book : OrderBook)
    (found :
      context.market.orderBooks.get? instrumentId = some book)
    (named : book.instrumentId = instrumentId)
    (invariant : BookInv ⟨context.market.heap, book⟩)
    (collected :
      CollectedFor instrumentId ⟨context.market.heap, book⟩ orders)
    (rearranged : orders.Perm others) :
    FairUpToTies instrumentId draw otherDraw orders others context := by
  have otherCollected := collected.perm rearranged
  have has : HasBook instrumentId context ⟨context.market.heap, book⟩ :=
    ⟨found, rfl⟩
  have facts := collected.facts draw invariant named
  have otherFacts := otherCollected.facts otherDraw invariant named
  rcases (executeOrders_cleared draw has collected invariant
      named).exists_ok with
    ⟨results, reached, evaluates, paired, bought, after, hasAfter,
      cleared⟩
  rcases (executeOrders_cleared otherDraw has otherCollected invariant
      named).exists_ok with
    ⟨otherResults, otherReached, otherEvaluates, otherPaired,
      otherBought, otherAfter, otherHas, otherCleared⟩
  have buyPerm := sorted_perm draw true .buy (List.Perm.refl orders)
  have sellPerm := sorted_perm draw false .sell (List.Perm.refl orders)
  have otherBuyPerm := sorted_perm otherDraw true .buy rearranged
  have otherSellPerm := sorted_perm otherDraw false .sell rearranged
  have buys := buyPerm.trans otherBuyPerm.symm
  have sells := sellPerm.trans otherSellPerm.symm
  have alike := alikeCleared facts otherFacts cleared otherCleared buys
    sells
  refine ⟨results, reached, otherResults, otherReached, evaluates,
    otherEvaluates, ⟨?_, ?_, ?_⟩, ?_, ?_⟩
  · intro side limit
    rw [hasAfter.heap, otherHas.heap]
    cases side with
    | buy =>
        rw [filledAt_eq buyPerm, filledAt_eq otherBuyPerm]
        exact alike.filledBuys facts otherFacts cleared otherCleared limit
    | sell =>
        rw [filledAt_eq sellPerm, filledAt_eq otherSellPerm]
        exact alike.filledSells facts otherFacts cleared otherCleared
          limit
  · rcases cleared.exists_trades with ⟨made, recorded, volumes⟩
    rcases otherCleared.exists_trades with
      ⟨otherMade, otherRecorded, otherVolumes⟩
    refine ⟨made, otherMade, ?_, ?_, ?_⟩
    · rw [hasAfter.heap]
      exact recorded
    · rw [otherHas.heap]
      exact otherRecorded
    · intro limit
      rw [volumes, otherVolumes, alike.pairedSells limit,
        alike.asks limit, alike.bids limit]
  · exact ⟨after.book, otherAfter.book, hasAfter.found, otherHas.found,
      alike.depth facts otherFacts cleared otherCleared buys sells⟩
  · exact cleared.strictPriority facts buyPerm sellPerm rfl hasAfter
  · exact otherCleared.strictPriority otherFacts
      (sorted_perm otherDraw true .buy (List.Perm.refl others))
      (sorted_perm otherDraw false .sell (List.Perm.refl others)) rfl
      otherHas

namespace Sample

/-- The book of the call with an offer and, below it, a bid. -/
def restingState : BookState :=
  replay BookCall.execute (BookState.initial "CALL")
    [.addOrder { sellTen with orderId := "OFFER" },
      .addOrder
        { buyFour with
          orderId := "BID"
          price := some 4
          price_positive := by decide +kernel
          price_pennies := by decide +kernel }]

/-- The collected orders meet a book in which orders rest. -/
def restingContext : BatchContext where
  market :=
    { heap := collected.foldl Heap.allocate restingState.heap
      orderBooks :=
        (∅ : OrderedDict String OrderBook).set "CALL" restingState.book }
  results := ∅

end Sample

/-- Two orders at 6.00 and one at 5.50 share the offers at 5.00. -/
theorem batch_fairUpToTies_restingOffer :
    FairUpToTies "CALL" (fun orderId => orderId.length)
      (fun orderId => 10 - orderId.length) Sample.collected
      Sample.collected.reverse Sample.restingContext := by
  have sound : BookInv Sample.restingState :=
    BookInv.of_run (run_replay (by decide +kernel))
  have agree : ∀ order ∈ Sample.restingState.book.resting,
      Sample.restingContext.market.heap.remaining order =
        Sample.restingState.heap.remaining order := by
    decide +kernel
  have collected : CollectedFor "CALL"
      ⟨Sample.restingContext.market.heap, Sample.restingState.book⟩
      Sample.collected := by
    constructor
    · decide +kernel
    · decide +kernel
    · decide +kernel
    · decide +kernel
    · decide +kernel
    · decide +kernel
  exact batch_fairUpToTies "CALL" (fun orderId => orderId.length)
    (fun orderId => 10 - orderId.length) Sample.collected
    Sample.collected.reverse Sample.restingContext
    Sample.restingState.book rfl (by decide +kernel)
    (sound.congr_heap agree) collected (List.reverse_perm _).symm

end InternTradingGame
