import InternTradingGame.Exchange.AuctionPricing
import InternTradingGame.Exchange.BatchSound

/-!
# What the pairing loop clears

The pairing loop fills two sorted queues.  After every trade the filling is
fair and the two queues are the orders which are not filled; when the loop
ends no buy order which is left meets a sell order which is left.  So the
loop trades the maximum volume of the pricing strategy, whatever the
tie-breaks are.
-/

namespace InternTradingGame

open Effects Clearing

/-! ## The invariant of the loop -/

/-- The two sides of a batch, each with its best order first. -/
structure BatchSides (start : Heap) (buys sells : List Order) :
    Prop where
  distinct : ((buys ++ sells).map Order.orderId).Nodup
  limits : ∀ order ∈ buys ++ sells, order.IsLimitOrder
  whole : ∀ order ∈ buys ++ sells, Whole (start.remaining order)
  unfilled : ∀ order ∈ buys ++ sells, 0 < start.remaining order
  bestBuys : buys.Pairwise fun first second =>
    second.limit ≤ first.limit
  bestSells : sells.Pairwise fun first second =>
    first.limit ≤ second.limit

/-- Only the trade history of the books has changed. -/
def SameLevels (before after : Market) : Prop :=
  ∀ instrumentId book,
    before.orderBooks.get? instrumentId = some book →
      ∃ reached, after.orderBooks.get? instrumentId = some reached ∧
        SameShape book reached ∧
        ∀ side, reached.levels side = book.levels side

/-- What every trade of the pairing loop keeps. -/
structure Pairing (start : Market) (buys sells : List Order)
    (buyQueue sellQueue : List Order) (now : Market) : Prop where
  filled : FilledFairly start.heap Order.limit buys sells now.heap
  buying : buyQueue = unfilledIn now.heap buys
  selling : sellQueue = unfilledIn now.heap sells
  whole : ∀ order ∈ buys ++ sells, Whole (now.heap.remaining order)
  levels : SameLevels start now

namespace SameLevels

variable {before middle after : Market}

theorem refl (market : Market) : SameLevels market market :=
  fun _ book found =>
    ⟨book, found, SameShape.refl book, fun _ => rfl⟩

theorem trans (first : SameLevels before middle)
    (second : SameLevels middle after) : SameLevels before after := by
  intro instrumentId book found
  rcases first _ _ found with ⟨between, betweenFound, same, levels⟩
  rcases second _ _ betweenFound with
    ⟨reached, reachedFound, laterSame, laterLevels⟩
  exact ⟨reached, reachedFound, same.trans laterSame, fun side =>
    (laterLevels side).trans (levels side)⟩

theorem settleTrade (market : Market) (trade : Trade)
    (buyOrder sellOrder : Order) :
    SameLevels market
      (BatchMatchingEngine.settleTrade trade buyOrder sellOrder
        market) := by
  intro instrumentId book found
  cases listed : market.orderBooks.get? trade.instrumentId with
  | none =>
      refine ⟨book, ?_, SameShape.refl book, fun _ => rfl⟩
      simp only [BatchMatchingEngine.settleTrade, listed]
      exact found
  | some other =>
      rw [settleTrade_eq listed]
      by_cases same : instrumentId = trade.instrumentId
      · rw [same] at found ⊢
        rcases Option.some.inj (listed.symm.trans found) with rfl
        exact ⟨_, Market.withBook_get?_self .., appendTrade_sameShape ..,
          fun side => OrderBook.levels_appendTrade other side trade⟩
      · refine ⟨book, ?_, SameShape.refl book, fun _ => rfl⟩
        rw [Market.withBook_get?_ne _ _ same]
        exact found

end SameLevels

/-! ## One trade -/

section Queue

variable {orders rest : List Order} {order other : Order}
  {before now after : Heap}

/-- The first order of a sorted queue is a best one of those not filled. -/
theorem best_of_queue {best : Order → Order → Prop}
    (queue : order :: rest = unfilledIn now orders)
    (sorted : orders.Pairwise best) (member : other ∈ orders)
    (unfilled : ¬ other.IsFilled now) :
    other = order ∨ best order other := by
  have inQueue : other ∈ order :: rest := by
    rw [queue]
    exact mem_unfilledIn.mpr ⟨member, unfilled⟩
  have pairwise : (order :: rest).Pairwise best := by
    rw [queue]
    exact sorted.sublist List.filter_sublist
  rcases List.mem_cons.mp inQueue with equal | inRest
  · exact Or.inl equal
  · exact Or.inr ((List.pairwise_cons.mp pairwise).1 other inRest)

/-- Only the first order of the queue can be filled by a trade. -/
theorem unlessFilled_eq (nodup : orders.Nodup)
    (queue : order :: rest = unfilledIn before orders)
    (others : ∀ other ∈ orders, other ≠ order →
      after.remaining other = before.remaining other) :
    unlessFilled order rest after = unfilledIn after orders := by
  have member : ∀ candidate ∈ order :: rest,
      candidate ∈ orders ∧ ¬ candidate.IsFilled before := by
    intro candidate inQueue
    rw [queue] at inQueue
    exact mem_unfilledIn.mp inQueue
  have narrowed : unfilledIn after orders =
      unfilledIn after (order :: rest) := by
    rw [queue, unfilledIn, unfilledIn, unfilledIn, List.filter_filter]
    apply List.filter_congr
    intro candidate inOrders
    by_cases same : candidate = order
    · have unfilled := (member order List.mem_cons_self).2
      rw [same, decide_eq_true unfilled, Bool.and_true]
    · simp only [Order.IsFilled, others candidate inOrders same]
      exact (Bool.and_self _).symm
  have restUnfilled : unfilledIn after rest = rest := by
    apply List.filter_eq_self.mpr
    intro candidate inRest
    rcases member candidate (List.mem_cons_of_mem _ inRest) with
      ⟨inOrders, unfilled⟩
    have queueNodup : (order :: rest).Nodup := by
      rw [queue]
      exact nodup.filter _
    have different : candidate ≠ order := by
      rintro rfl
      exact (List.nodup_cons.mp queueNodup).1 inRest
    apply decide_eq_true
    rw [Order.IsFilled, others candidate inOrders different]
    exact unfilled
  rw [narrowed, unlessFilled]
  split_ifs with filled
  · rw [unfilledIn, List.filter_cons_of_neg (by simpa using filled)]
    exact restUnfilled.symm
  · rw [unfilledIn, List.filter_cons_of_pos (by simpa using filled)]
    exact congrArg (order :: ·) restUnfilled.symm

end Queue

section Step

variable {start now : Market} {buys sells buyOrders sellOrders : List Order}
  {buyOrder sellOrder : Order} {trade : Trade}

theorem pairTrade_price {market : Market}
    (crosses : Crosses buyOrder sellOrder)
    (created : pairTrade buyOrder sellOrder market = .ok trade) :
    trade.price = sellOrder.limit := by
  rcases crosses with ⟨bid, ask, _, askPriced, _⟩
  simp only [pairTrade, BatchMatchingEngine.createTrade,
    askPriced] at created
  rw [(Trade.new_ok created).atPrice, Order.limit, askPriced]
  rfl

theorem Crosses.limits (crosses : Crosses buyOrder sellOrder) :
    sellOrder.limit ≤ buyOrder.limit := by
  rcases crosses with ⟨bid, ask, bidPriced, askPriced, inside⟩
  rw [Order.limit, Order.limit, bidPriced, askPriced]
  exact inside

/-- The trade of a pair takes its quantity from both orders. -/
theorem settleTrade_settles {market : Market}
    (different : buyOrder.orderId ≠ sellOrder.orderId) :
    Settles trade buyOrder sellOrder market.heap
      (BatchMatchingEngine.settleTrade trade buyOrder sellOrder
        market).heap where
  recorded := rfl
  remaining := by
    intro order
    by_cases isBuy : order.orderId = buyOrder.orderId
    · have bought := @settleTrade_remaining_buy market trade _ _ different
      rw [Heap.remaining, Heap.remaining, ← isBuy] at bought
      rw [if_pos (Or.inl isBuy)]
      exact bought
    · by_cases isSell : order.orderId = sellOrder.orderId
      · have sold :=
          @settleTrade_remaining_sell market trade _ _ different
        rw [Heap.remaining, Heap.remaining, ← isSell] at sold
        rw [if_pos (Or.inr isSell)]
        exact sold
      · rw [settleTrade_remaining_other isBuy isSell,
          if_neg (not_or.mpr ⟨isBuy, isSell⟩), sub_zero]

theorem crosses_of_limits (isBid : buyOrder.IsLimitOrder)
    (isAsk : sellOrder.IsLimitOrder)
    (inside : sellOrder.limit ≤ buyOrder.limit) :
    Crosses buyOrder sellOrder :=
  ⟨_, _, isBid.price_eq, isAsk.price_eq, inside⟩

namespace Pairing

/-- The first orders of the two queues. -/
theorem heads
    (pairing : Pairing start buys sells (buyOrder :: buyOrders)
      (sellOrder :: sellOrders) now) :
    (buyOrder ∈ buys ∧ ¬ buyOrder.IsFilled now.heap) ∧
      (sellOrder ∈ sells ∧ ¬ sellOrder.IsFilled now.heap) := by
  constructor
  · apply mem_unfilledIn.mp
    rw [← pairing.buying]
    exact List.mem_cons_self
  · apply mem_unfilledIn.mp
    rw [← pairing.selling]
    exact List.mem_cons_self

theorem remaining_positive {buyQueue sellQueue : List Order}
    (pairing : Pairing start buys sells buyQueue sellQueue now)
    {order : Order} (member : order ∈ buys ++ sells)
    (unfilled : ¬ order.IsFilled now.heap) :
    0 < now.heap.remaining order :=
  lt_of_le_of_ne (pairing.filled.bounds member).2 (Ne.symm unfilled)

/-- The better orders of both sides have been filled. -/
theorem better (sides : BatchSides start.heap buys sells)
    (pairing : Pairing start buys sells (buyOrder :: buyOrders)
      (sellOrder :: sellOrders) now) :
    (∀ other ∈ buys, buyOrder.limit < other.limit →
        other.IsFilled now.heap) ∧
      ∀ other ∈ sells, other.limit < sellOrder.limit →
        other.IsFilled now.heap := by
  constructor
  · intro other member better
    by_contra unfilled
    rcases best_of_queue pairing.buying sides.bestBuys member unfilled
      with rfl | behind
    · exact lt_irrefl _ better
    · exact absurd better (not_lt.mpr behind)
  · intro other member better
    by_contra unfilled
    rcases best_of_queue pairing.selling sides.bestSells member unfilled
      with rfl | behind
    · exact lt_irrefl _ better
    · exact absurd better (not_lt.mpr behind)

/-- One trade between the first orders of the queues keeps all of it. -/
theorem step (sides : BatchSides start.heap buys sells)
    (pairing : Pairing start buys sells (buyOrder :: buyOrders)
      (sellOrder :: sellOrders) now)
    (crosses : Crosses buyOrder sellOrder)
    (created : pairTrade buyOrder sellOrder now = .ok trade) :
    Pairing start buys sells
      (unlessFilled buyOrder buyOrders
        (BatchMatchingEngine.settleTrade trade buyOrder sellOrder
          now).heap)
      (unlessFilled sellOrder sellOrders
        (BatchMatchingEngine.settleTrade trade buyOrder sellOrder
          now).heap)
      (BatchMatchingEngine.settleTrade trade buyOrder sellOrder now) := by
  rcases pairing.heads with ⟨⟨buyMember, _⟩, sellMember, _⟩
  have different := orderId_apart sides.distinct buyMember sellMember
  have quantity := pairTrade_quantity crosses created
  have settles := @settleTrade_settles _ _ trade now different
  have buysDistinct : (buys.map Order.orderId).Nodup :=
    sides.distinct.sublist ((List.sublist_append_left _ _).map _)
  have sellsDistinct : (sells.map Order.orderId).Nodup :=
    sides.distinct.sublist ((List.sublist_append_right _ _).map _)
  constructor
  · apply pairing.filled.step sides.distinct settles buyMember sellMember
    · exact quantity ▸ min_le_left _ _
    · exact quantity ▸ min_le_right _ _
    · exact crosses.limits
    · exact (pairing.better sides).1
    · exact (pairing.better sides).2
    · exact pairTrade_price crosses created
  · apply unlessFilled_eq (List.Nodup.of_map _ buysDistinct)
      pairing.buying
    intro other member distinct
    exact settles.unchanged
      (orderId_ne buysDistinct member buyMember distinct)
      (orderId_apart sides.distinct member sellMember)
  · apply unlessFilled_eq (List.Nodup.of_map _ sellsDistinct)
      pairing.selling
    intro other member distinct
    exact settles.unchanged
      (orderId_apart sides.distinct buyMember member).symm
      (orderId_ne sellsDistinct member sellMember distinct)
  · intro order member
    rw [settles.remaining]
    split_ifs
    · exact (pairing.whole order member).sub trade.quantity_whole
    · rw [sub_zero]
      exact pairing.whole order member
  · exact pairing.levels.trans (SameLevels.settleTrade _ _ _ _)

end Pairing

end Step

/-! ## The whole loop -/

section Loop

variable {start : Market} {buys sells : List Order}

/-- What the loop leaves: a fair filling which is exhausted. -/
structure Cleared (start : Market) (buys sells : List Order)
    (left : List Order × List Order) (reached : Market) : Prop where
  pairing : Pairing start buys sells left.1 left.2 reached
  exhausted : Exhausted Order.limit start.heap.remaining
    (filledSince start.heap reached.heap) buys sells

/-- A trade of the loop, and what holds before it. -/
structure PairMade (start : Market) (buys sells : List Order)
    (buyOrder sellOrder : Order) (trade : Trade) (now : Market) :
    Prop where
  inTurn : ∃ buyOrders sellOrders, Pairing start buys sells
    (buyOrder :: buyOrders) (sellOrder :: sellOrders) now
  crosses : Crosses buyOrder sellOrder
  created : pairTrade buyOrder sellOrder now = .ok trade

theorem Pairing.initial (sides : BatchSides start.heap buys sells) :
    Pairing start buys sells buys sells start := by
  have all : ∀ {orders : List Order}, orders.Sublist (buys ++ sells) →
      orders = unfilledIn start.heap orders := by
    intro orders sublist
    apply (List.filter_eq_self.mpr _).symm
    intro order member
    exact decide_eq_true
      (sides.unfilled order (sublist.subset member)).ne'
  constructor
  · exact FilledFairly.start fun order member =>
      (sides.unfilled order member).le
  · exact all (List.sublist_append_left _ _)
  · exact all (List.sublist_append_right _ _)
  · exact sides.whole
  · exact SameLevels.refl start

/-- When the loop ends no order which is left meets another one. -/
theorem Pairing.cleared {left : List Order × List Order}
    {reached : Market} (sides : BatchSides start.heap buys sells)
    (pairing : Pairing start buys sells left.1 left.2 reached)
    (done : PairingDone left) : Cleared start buys sells left reached := by
  refine ⟨pairing, ?_⟩
  intro bid bidMember ask askMember bidOpen askOpen
  have bidLeft : bid ∈ left.1 := by
    rw [pairing.buying]
    exact mem_unfilledIn.mpr
      ⟨bidMember, fun filled => bidOpen.ne (filled_iff.mpr filled)⟩
  have askLeft : ask ∈ left.2 := by
    rw [pairing.selling]
    exact mem_unfilledIn.mpr
      ⟨askMember, fun filled => askOpen.ne (filled_iff.mpr filled)⟩
  rcases done with empty | empty |
    ⟨buyOrder, buyOrders, sellOrder, sellOrders, rfl, apart⟩
  · rw [empty] at bidLeft
    cases bidLeft
  · rw [empty] at askLeft
    cases askLeft
  · have buyLimit := sides.limits buyOrder
      (List.mem_append_left _ pairing.heads.1.1)
    have sellLimit := sides.limits sellOrder
      (List.mem_append_right _ pairing.heads.2.1)
    have headsApart : buyOrder.limit < sellOrder.limit :=
      not_le.mp fun inside =>
        apart (crosses_of_limits buyLimit sellLimit inside)
    have bidBehind : bid.limit ≤ buyOrder.limit := by
      rcases best_of_queue pairing.buying sides.bestBuys bidMember
        (fun filled => bidOpen.ne (filled_iff.mpr filled)) with
        rfl | behind
      · exact le_rfl
      · exact behind
    have askBehind : sellOrder.limit ≤ ask.limit := by
      rcases best_of_queue pairing.selling sides.bestSells askMember
        (fun filled => askOpen.ne (filled_iff.mpr filled)) with
        rfl | behind
      · exact le_rfl
      · exact behind
    exact bidBehind.trans_lt (headsApart.trans_le askBehind)

/--
The pairing loop never raises, and it clears the two sides.  What its trades
keep still holds.
-/
theorem pairOrders_cleared (context : BatchContext)
    (sides : BatchSides context.market.heap buys sells)
    {iterations : Nat} (enough : buys.length + sells.length < iterations)
    (kept : Heap → Prop) (holds : kept context.market.heap)
    (keeps : ∀ buyOrder sellOrder trade now,
      PairMade context.market buys sells buyOrder sellOrder trade now →
        kept now.heap →
          kept
            (BatchMatchingEngine.settleTrade trade buyOrder sellOrder
              now).heap) :
    Ends (BatchMatchingEngine.pairOrders iterations buys sells) context
      (fun left reached =>
        Cleared context.market buys sells left reached.market ∧
          kept reached.market.heap)
      (fun _ _ => False) := by
  have loop := pairOrders_ends
    (fun buyQueue sellQueue reached =>
      Pairing context.market buys sells buyQueue sellQueue
          reached.market ∧
        kept reached.market.heap)
    (by
      rintro buyOrder _ sellOrder _ reached ⟨pairing, _⟩
      exact orderId_apart sides.distinct pairing.heads.1.1
        pairing.heads.2.1)
    (by
      rintro buyOrder buyOrders sellOrder sellOrders reached trade
        ⟨pairing, sofar⟩ crosses created
      exact ⟨pairing.step sides crosses created,
        keeps _ _ _ _ ⟨⟨_, _, pairing⟩, crosses, created⟩ sofar⟩)
    _ buys sells context ⟨Pairing.initial sides, holds⟩ enough
  refine loop.mono ?_ ?_
  · rintro left reached ⟨⟨pairing, also⟩, done⟩
    exact ⟨pairing.cleared sides done, also⟩
  · rintro exception reached
      ⟨buyOrder, _, sellOrder, _, ⟨pairing, _⟩, crosses, raised⟩
    have buyMember := List.mem_append_left sells pairing.heads.1.1
    have sellMember := List.mem_append_right buys pairing.heads.2.1
    have made : ∃ trade,
        pairTrade buyOrder sellOrder reached.market = .ok trade := by
      rcases crosses with ⟨bid, ask, _, askPriced, _⟩
      simp only [pairTrade, BatchMatchingEngine.createTrade, askPriced]
      apply Trade.exists_new
      · exact sellOrder.price_positive ask askPriced
      · exact lt_min
          (pairing.remaining_positive buyMember pairing.heads.1.2)
          (pairing.remaining_positive sellMember pairing.heads.2.2)
      · exact (pairing.whole _ buyMember).min
          (pairing.whole _ sellMember)
    rcases made with ⟨trade, created⟩
    rw [created] at raised
    cases raised

end Loop

/-! ## The sorted sides of a batch -/

section Sorted

variable (draw : String → ℚ) {orders : List Order}

theorem randomize_perm (descending : Bool) (orders : List Order) :
    (BatchMatchingEngine.randomizeSamePriceOrders draw descending
      orders).Perm orders :=
  List.perm_insertionSort _ _

/-- The sort keys of limit orders tell which limit is better. -/
theorem limits_of_sortKey {descending : Bool} {first second : Order}
    (firstLimit : first.IsLimitOrder) (secondLimit : second.IsLimitOrder)
    (before : BatchMatchingEngine.sortKey draw descending first ≤
      BatchMatchingEngine.sortKey draw descending second) :
    if descending = true then
      second.limit ≤ first.limit
    else
      first.limit ≤ second.limit := by
  have prices := Prod.Lex.monotone_fst _ _ before
  simp only [BatchMatchingEngine.sortKey, firstLimit.price_eq,
    secondLimit.price_eq] at prices
  split_ifs at prices ⊢ with isDescending
  · exact neg_le_neg_iff.mp prices
  · exact prices

/-- Whatever is drawn, the orders are sorted by price. -/
theorem randomize_sorted (descending : Bool)
    (limits : ∀ order ∈ orders, order.IsLimitOrder) :
    (BatchMatchingEngine.randomizeSamePriceOrders draw descending
      orders).Pairwise fun first second =>
        if descending = true then
          second.limit ≤ first.limit
        else
          first.limit ≤ second.limit := by
  have keys : (BatchMatchingEngine.randomizeSamePriceOrders draw
      descending orders).Pairwise fun first second =>
        BatchMatchingEngine.sortKey draw descending first ≤
          BatchMatchingEngine.sortKey draw descending second :=
    List.pairwise_insertionSort _ _
  apply keys.imp_of_mem
  intro first second firstMember secondMember before
  have isLimit : ∀ {order}, order ∈
      BatchMatchingEngine.randomizeSamePriceOrders draw descending
        orders → order.IsLimitOrder :=
    fun member => limits _ ((randomize_perm draw _ _).mem_iff.mp member)
  exact limits_of_sortKey draw (isLimit firstMember)
    (isLimit secondMember) before

/-- The sorted sides of a batch of orders which wait for it. -/
theorem batchSides {heap : Heap}
    (distinct : (orders.map Order.orderId).Nodup)
    (limits : ∀ order ∈ orders, order.IsLimitOrder)
    (whole : ∀ order ∈ orders, Whole (heap.remaining order))
    (unfilled : ∀ order ∈ orders, 0 < heap.remaining order) :
    BatchSides heap
      (BatchMatchingEngine.randomizeSamePriceOrders draw true
        (orders.filter fun order => order.side = .buy))
      (BatchMatchingEngine.randomizeSamePriceOrders draw false
        (orders.filter fun order => order.side = .sell)) := by
  have perm := sides_perm draw orders
  have sideLimits : ∀ side : OrderSide,
      ∀ order ∈ orders.filter fun order => order.side = side,
        order.IsLimitOrder :=
    fun side order member =>
      limits order (List.mem_filter.mp member).1
  constructor
  · exact (perm.map Order.orderId).nodup_iff.mp distinct
  · exact fun order member => limits order (perm.mem_iff.mpr member)
  · exact fun order member => whole order (perm.mem_iff.mpr member)
  · exact fun order member => unfilled order (perm.mem_iff.mpr member)
  · exact randomize_sorted draw true (sideLimits .buy)
  · exact randomize_sorted draw false (sideLimits .sell)

end Sorted

/-! ## The maximum volume -/

/-- The loop as a batch runs it on the orders of one instrument. -/
def pairCollected (draw : String → ℚ) (orders : List Order) :
    BatchM (List Order × List Order) :=
  let buyOrders :=
    BatchMatchingEngine.randomizeSamePriceOrders draw true
      (orders.filter fun order => order.side = .buy)
  let sellOrders :=
    BatchMatchingEngine.randomizeSamePriceOrders draw false
      (orders.filter fun order => order.side = .sell)
  BatchMatchingEngine.pairOrders
    (buyOrders.length + sellOrders.length + 1) buyOrders sellOrders

theorem matchInstrument_eq (draw : String → ℚ)
    (collected : String × List Order) :
    BatchMatchingEngine.matchInstrument draw collected =
      (do
        let context ← get
        if context.market.orderBooks.Contains collected.1 then do
          let left ← pairCollected draw collected.2
          BatchMatchingEngine.addOrdersToBook collected.1
            (left.1 ++ left.2)
        else
          return ⟨⟩) :=
  rfl

section MaximumVolume

variable {start reached : Market} {buys sells bids asks : List Order}
  {left : List Order × List Order}

/-- Arranging the orders otherwise changes no volume. -/
theorem volumeAt_perm {capacity : Order → ℚ}
    (buying : buys.Perm bids) (selling : sells.Perm asks)
    (quantities : ∀ order ∈ buys ++ sells,
      capacity order = order.quantity) (value : ℚ) :
    volumeAt Order.limit capacity buys sells value =
      volumeAt Order.limit Order.quantity bids asks value := by
  have demand : demandAt Order.limit capacity buys value =
      demandAt Order.limit Order.quantity bids value :=
    (totalOf_congr fun order member =>
      quantities order (List.mem_append_left _ member)).trans
      (totalOf_perm buying)
  have supply : supplyAt Order.limit capacity sells value =
      supplyAt Order.limit Order.quantity asks value :=
    (totalOf_congr fun order member =>
      quantities order (List.mem_append_right _ member)).trans
      (totalOf_perm selling)
  rw [volumeAt, volumeAt, demand, supply]

/-- What the loop clears is the volume the strategy computes. -/
theorem Cleared.volume_eq
    (cleared : Cleared start buys sells left reached)
    (buying : buys.Perm bids) (selling : sells.Perm asks)
    (quantities : ∀ order ∈ buys ++ sells,
      start.heap.remaining order = order.quantity)
    {volume : ℤ}
    (maximum : MaximumVolumePricingStrategy.IsMaximumVolume bids asks
      volume) :
    (buys.map (filledSince start.heap reached.heap)).sum = volume := by
  have fair := cleared.pairing.filled.fair
  have nonnegative :
      0 ≤ (buys.map (filledSince start.heap reached.heap)).sum := by
    apply List.sum_nonneg
    intro value member
    rcases List.mem_map.mp member with ⟨order, inBuys, rfl⟩
    exact fair.buying.nonnegative order inBuys
  have same := @volumeAt_perm _ _ _ _ start.heap.remaining buying selling
    quantities
  have candidate : ∀ bid ∈ buys, ∀ ask ∈ sells, ask.limit ≤ bid.limit →
      volumeAt Order.limit start.heap.remaining buys sells ask.limit ≤
        volume := by
    intro bid bidMember ask askMember crosses
    rw [same]
    exact maximum.crossing bid (buying.mem_iff.mp bidMember) ask
      (selling.mem_iff.mp askMember) crosses
  have attained :
      (volume : ℚ) ≤
        (buys.map (filledSince start.heap reached.heap)).sum := by
    rcases maximum.attained with zero | ⟨price, equal⟩
    · rw [zero, Int.cast_zero]
      exact nonnegative
    · rw [equal, ← same]
      exact volumeAt_le fair cleared.exhausted price
  apply le_antisymm _ attained
  rcases nonnegative.eq_or_lt with zero | positive
  · rw [← zero]
    rcases maximum.attained with noVolume | ⟨price, equal⟩
    · rw [noVolume, Int.cast_zero]
    · rw [equal]
      exact MaximumVolumePricingStrategy.volumeAt_nonneg price
  · rcases exists_volumeAt fair positive with
      ⟨bid, bidMember, ask, askMember, crosses, clears⟩
    exact clears.trans (candidate bid bidMember ask askMember crosses)

/-- The trades of the loop have the volume that the buyers bought. -/
theorem Cleared.exists_trades
    (cleared : Cleared start buys sells left reached) :
    ∃ made, reached.heap.trades = start.heap.trades ++ made ∧
      (made.map Trade.quantity).sum =
        (buys.map (filledSince start.heap reached.heap)).sum := by
  rcases cleared.pairing.filled.trades with ⟨made, recorded, volumes⟩
  refine ⟨made, recorded, ?_⟩
  have all := volumes fun _ => true
  rw [volumeOf, totalOf_all fun _ _ => rfl, totalOf_all fun _ _ => rfl,
    ← cleared.pairing.filled.fair.balanced] at all
  exact all

/-- What the pairing loop of a batch does, beside the strategy. -/
structure MaximumPairing (draw : String → ℚ) (orders bids asks : List Order)
    (context : BatchContext) (made : List Trade)
    (result : AuctionClearingResult) : Prop where
  paired : ∃ left reached,
    pairCollected draw orders context = .ok left reached ∧
      reached.market.heap.trades = context.market.heap.trades ++ made
  priced :
    MaximumVolumePricingStrategy.calculateClearingPrice bids asks =
      .ok result
  volume : (made.map Trade.quantity).sum = result.maxVolume
  nothing : (∀ bid ∈ bids, ∀ ask ∈ asks, bid.limit < ask.limit) →
    result.maxVolume = 0

/--
The pairing loop trades the maximum volume of the pricing strategy, whatever
is drawn for the ties and however the strategy is given the two sides.
-/
theorem pairing_maximumVolume (draw : String → ℚ)
    (orders bids asks : List Order) (context : BatchContext)
    (distinct : (orders.map Order.orderId).Nodup)
    (limits : ∀ order ∈ orders, order.IsLimitOrder)
    (whole : ∀ order ∈ orders, Whole order.quantity)
    (unfilled : ∀ order ∈ orders,
      context.market.heap.remaining order = order.quantity)
    (buying : bids.Perm (orders.filter fun order => order.side = .buy))
    (selling :
      asks.Perm (orders.filter fun order => order.side = .sell)) :
    ∃ made result,
      MaximumPairing draw orders bids asks context made result := by
  have sides := batchSides draw distinct limits
    (fun order member => (unfilled order member).symm ▸
      whole order member)
    (fun order member => (unfilled order member).symm ▸
      order.quantity_positive)
  rcases (pairOrders_cleared context sides (Nat.lt_succ_self _)
      (fun _ => True) trivial
      fun _ _ _ _ _ _ => trivial).exists_ok with
    ⟨left, reached, paired, cleared, _⟩
  have bidPerm := (randomize_perm draw true _).trans buying.symm
  have askPerm := (randomize_perm draw false _).trans selling.symm
  have sideLimits : ∀ side : OrderSide,
      MaximumVolumePricingStrategy.WholeLimits
        (orders.filter fun order => order.side = side) :=
    fun side order member =>
      ⟨limits order (List.mem_filter.mp member).1,
        whole order (List.mem_filter.mp member).1⟩
  have quantities : ∀ order ∈
      BatchMatchingEngine.randomizeSamePriceOrders draw true
          (orders.filter fun order => order.side = .buy) ++
        BatchMatchingEngine.randomizeSamePriceOrders draw false
          (orders.filter fun order => order.side = .sell),
      context.market.heap.remaining order = order.quantity :=
    fun order member =>
      unfilled order ((sides_perm draw orders).mem_iff.mpr member)
  have bidLimits : MaximumVolumePricingStrategy.WholeLimits bids :=
    fun order member => sideLimits .buy order (buying.subset member)
  have askLimits : MaximumVolumePricingStrategy.WholeLimits asks :=
    fun order member => sideLimits .sell order (selling.subset member)
  rcases MaximumVolumePricingStrategy.exists_calculateClearingPrice bidLimits
      askLimits with
    ⟨result, priced, maximum⟩
  rcases cleared.exists_trades with ⟨made, recorded, total⟩
  refine ⟨made, result, ⟨left, reached, paired, recorded⟩, priced, ?_,
    maximum.nothing⟩
  exact total.trans (cleared.volume_eq bidPerm askPerm quantities maximum)

end MaximumVolume

namespace Sample

/-- Two more buy orders, one of them at the same price. -/
def buyFourAgain : Order :=
  { buyFour with orderId := "BUY2" }

/-- A bid of four contracts at 5.50. -/
def buyLower : Order :=
  { buyFour with
    orderId := "BUY3"
    price := some (11 / 2)
    price_positive := by decide +kernel
    price_pennies := by decide +kernel }

/-- Three buy orders and a sell order have been collected. -/
def collected : List Order :=
  [buyLower, sellTen, buyFour, buyFourAgain]

/--
The batch engine before it pairs the collected orders, with no book to trade
against.
-/
def collectedContext : BatchContext where
  market :=
    { heap := collected.foldl Heap.allocate Heap.empty
      orderBooks := ∅ }
  results := ∅

end Sample

/-- Twelve contracts are wanted and ten are sold, at 5.00 to 5.50. -/
theorem pairing_maximumVolume_tenOfTwelve :
    ∃ made result,
      MaximumPairing (fun orderId => orderId.length) Sample.collected
          [Sample.buyFour, Sample.buyFourAgain, Sample.buyLower]
          [Sample.sellTen] Sample.collectedContext made result ∧
        result.clearingPrice = 21 / 4 ∧ result.maxVolume = 10 := by
  rcases pairing_maximumVolume (fun orderId => orderId.length)
      Sample.collected
      [Sample.buyFour, Sample.buyFourAgain, Sample.buyLower]
      [Sample.sellTen] Sample.collectedContext
      (by decide +kernel) (by decide +kernel) (by decide +kernel)
      (by decide +kernel) (by decide +kernel) (by decide +kernel) with
    ⟨made, result, facts⟩
  have priced :
      MaximumVolumePricingStrategy.calculateClearingPrice
          [Sample.buyFour, Sample.buyFourAgain, Sample.buyLower]
          [Sample.sellTen] =
        .ok
          { clearingPrice := 21 / 4
            maxVolume := 10
            algorithm := "maximum_volume"
            priceRange := some (5, 11 / 2) } := by
    decide +kernel
  rcases Except.ok.inj (facts.priced.symm.trans priced) with rfl
  exact ⟨made, _, facts, rfl, rfl⟩

end InternTradingGame
