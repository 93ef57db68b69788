import InternTradingGame.Exchange.BatchStages

/-!
# Do the results of a batch tell the truth?

A batch with a market sell order pairs nothing: its limit buy orders rest in
the book, and the sell orders, which come last, may meet them there.  Such a
trade is recorded in the result of the sell order only.
-/

namespace InternTradingGame

open Effects Clearing

/-! ## When a batch meets itself -/

/-- What the limit buy orders which pay a price want. -/
def wantedAt (orders : List Order) (price : ℚ) : ℚ :=
  totalOf Order.quantity
    (fun order => order.side = .buy ∧ order.IsLimitOrder ∧
      price ≤ order.limit) orders

/-- What the sell orders which accept a price give. -/
def offeredAt (orders : List Order) (price : ℚ) : ℚ :=
  totalOf Order.quantity
    (fun order => order.side = .sell ∧ ¬ order.Refuses price) orders

/--
The orders of an instrument meet each other in its book: there is a market
sell order, and there is a limit buy order whose price is not served by the
asks which rest up to it and is reached by the sell orders past the bids
which rest from it.
-/
def MeetsItself (heap : Heap) (book : OrderBook) (orders : List Order) :
    Prop :=
  (∃ sell ∈ orders, sell.side = .sell ∧ sell.price = none) ∧
    ∃ buy ∈ orders, buy.side = .buy ∧ buy.IsLimitOrder ∧
      supplyAt Order.limit heap.remaining (book.restingOn .sell)
          buy.limit < wantedAt orders buy.limit ∧
      demandAt Order.limit heap.remaining (book.restingOn .buy)
          buy.limit < offeredAt orders buy.limit

instance (heap : Heap) (book : OrderBook) (orders : List Order) :
    Decidable (MeetsItself heap book orders) :=
  inferInstanceAs (Decidable (_ ∧ ∃ buy ∈ orders, _))

section OneInstrument

variable {instrumentId : String} {known : String → String → Prop}
  {start paired bought served after : BookState} {queues : BatchQueues}
  {context reached : BatchContext} {early sold : List Trade}
  {order : Order}

/-- A buy order of the batch trades while the sell orders are added. -/
def SoldToBatch (queues : BatchQueues) (served after : BookState) : Prop :=
  ∃ buy ∈ queues.buys,
    0 < filledSince served.heap after.heap buy

namespace Staged

/-- The sell orders fill the bids by price, and the seniors first. -/
theorem selling_fair
    (staged : Staged instrumentId known start queues context paired bought
      served after early sold reached) :
    Fair (standing (start.book.restingOn .buy)) served.heap.remaining
      (filledSince served.heap after.heap)
      (queues.marketSells ++ unfilledIn paired.heap queues.limitSells)
      (served.book.restingOn .buy) :=
  staged.sells.meeting.fair

theorem selling_exhausted
    (staged : Staged instrumentId known start queues context paired bought
      served after early sold reached) :
    Exhausted (standing (start.book.restingOn .buy))
      served.heap.remaining (filledSince served.heap after.heap)
      (queues.marketSells ++ unfilledIn paired.heap queues.limitSells)
      (served.book.restingOn .buy) :=
  staged.sells.exhausted

/-- A buy order to which something is sold has joined the bids. -/
theorem sold_to (facts : QueueFacts instrumentId start queues)
    (staged : Staged instrumentId known start queues context paired bought
      served after early sold reached)
    (member : order ∈ queues.buys)
    (touched : 0 < filledSince served.heap after.heap order) :
    order ∈ served.book.restingOn .buy ∧
      order ∈ unfilledIn paired.heap queues.limitBuys ∧
      ¬ order.IsFilled bought.heap := by
  have inBoth : order.orderId ∈
      ((queues.marketSells ++ unfilledIn paired.heap queues.limitSells) ++
        served.book.restingOn .buy).map Order.orderId := by
    by_contra outside
    have same := staged.sells.meeting.others order outside
    have none : filledSince served.heap after.heap order = 0 :=
      sub_eq_zero.mpr same.symm
    exact touched.ne' none
  rcases List.mem_map.mp inBoth with ⟨other, otherMember, equal⟩
  rcases List.mem_append.mp otherMember with taker | bid
  · exact absurd equal.symm (facts.apart member (BatchQueues.mem_sells taker))
  · rcases List.mem_append.mp
      ((staged.buys.bids facts staged.pairing).own.mem_iff.mp bid) with
      before | joined
    · exact absurd equal (facts.invariant.shape.not_mem_resting
        (facts.addable order (List.mem_append_left _ member)).absent other
        (OrderBook.mem_resting_of_mem before))
    · rcases List.mem_filter.mp joined with ⟨taker, left⟩
      have buy : other ∈ queues.buys :=
        List.mem_append_left _ (mem_unfilledIn.mp taker).1
      rcases List.inj_on_of_nodup_map facts.buysDistinct buy member
        equal with rfl
      exact ⟨bid, taker, (of_decide_eq_true left).2⟩

/-- The bids which rested before are not touched by the buy orders. -/
theorem senior_remaining
    (facts : QueueFacts instrumentId start queues)
    (staged : Staged instrumentId known start queues context paired bought
      served after early sold reached)
    (senior : order ∈ start.book.restingOn .buy) :
    served.heap.remaining order = start.heap.remaining order := by
  have inPaired : order ∈ (queues.buying paired).rested := by
    show order ∈ paired.book.restingOn .buy
    rw [staged.pairing.same.restingOn]
    exact senior
  have inBought : order ∈ (queues.marketBuying bought).rested :=
    staged.buys.buying.own.kept.subset inPaired
  calc
    served.heap.remaining order = bought.heap.remaining order :=
      staged.buys.marketBuying.rested_untouched
        (marketBuying_sides facts staged.pairing staged.buys.buying)
        inBought
    _ = paired.heap.remaining order :=
      staged.buys.buying.rested_untouched
        (staged.pairing.buying_sides facts) inPaired
    _ = start.heap.remaining order :=
      staged.pairing.resting facts order
        (OrderBook.mem_resting_of_mem senior)

/-- Without market sell orders nothing is sold to the batch. -/
theorem marketSells_of_sold
    (facts : QueueFacts instrumentId start queues)
    (staged : Staged instrumentId known start queues context paired bought
      served after early sold reached)
    (member : order ∈ queues.buys)
    (touched : 0 < filledSince served.heap after.heap order) :
    queues.marketSells ≠ [] := by
  intro noMarket
  have fair := staged.selling_fair
  rcases staged.sold_to facts member touched with ⟨bid, taken, _⟩
  have limit := (mem_unfilledIn.mp taken).1
  rcases fair.exists_served bid touched with ⟨sell, sellMember, positive⟩
  have crosses := fair.crossing sell sellMember order bid positive touched
  rw [noMarket, List.nil_append] at sellMember
  have junior := facts.junior (List.mem_append_right _
    (List.mem_append_right _ (mem_unfilledIn.mp sellMember).1))
  rw [← not_lt, standing_lt_iff junior, not_lt] at crosses
  have apart := staged.pairing.exhausted noMarket order limit sell
    (mem_unfilledIn.mp sellMember).1
    (staged.pairing.filled.lt_of_unfilled (List.mem_append_left _ limit)
      (mem_unfilledIn.mp taken).2)
    (staged.pairing.filled.lt_of_unfilled
      (List.mem_append_right _ (mem_unfilledIn.mp sellMember).1)
      (mem_unfilledIn.mp sellMember).2)
  exact absurd crosses (not_le.mpr apart)

/-- The orders of a batch have not been filled before. -/
theorem unfilledIn_start (facts : QueueFacts instrumentId start queues)
    {orders : List Order}
    (inBatch : ∀ order ∈ orders, order ∈ queues.buys ++ queues.sells) :
    unfilledIn start.heap orders = orders := by
  apply List.filter_eq_self.mpr
  intro order member
  apply decide_eq_true
  rw [Order.IsFilled, facts.unfilled order (inBatch order member)]
  exact order.quantity_positive.ne'

/-- Whether a limit buy order is left when the asks have been met. -/
theorem bought_room_iff
    (facts : QueueFacts instrumentId start queues)
    (staged : Staged instrumentId known start queues context paired bought
      served after early sold reached)
    (idle : paired.heap = start.heap) (member : order ∈ queues.limitBuys) :
    (∃ other ∈ queues.limitBuys, other.limit = order.limit ∧
        ¬ other.IsFilled bought.heap) ↔
      supplyAt Order.limit start.heap.remaining
          (start.book.restingOn .sell) order.limit <
        totalOf Order.quantity
          (fun buy => order.limit ≤ buy.limit) queues.limitBuys := by
  have inBatch : ∀ order ∈ queues.limitBuys,
      order ∈ queues.buys ++ queues.sells := fun order member =>
    List.mem_append_left _ (List.mem_append_left _ member)
  have takers : unfilledIn paired.heap queues.limitBuys =
      queues.limitBuys := by
    rw [idle]
    exact unfilledIn_start facts inBatch
  have fair : Fair Order.limit paired.heap.remaining
      (filledSince paired.heap bought.heap)
      (unfilledIn paired.heap queues.limitBuys)
      (paired.book.restingOn .sell) := staged.buys.buying.meeting.fair
  have exhausted : Exhausted Order.limit paired.heap.remaining
      (filledSince paired.heap bought.heap)
      (unfilledIn paired.heap queues.limitBuys)
      (paired.book.restingOn .sell) := staged.buys.buying.exhausted
  rw [takers, idle, staged.pairing.same.restingOn] at fair exhausted
  have whole : ∀ buy ∈ queues.limitBuys,
      start.heap.remaining buy = buy.quantity := fun buy inBuys =>
    facts.unfilled buy (inBatch buy inBuys)
  have positive : 0 < start.heap.remaining order := by
    rw [whole order member]
    exact order.quantity_positive
  have room := fair.bid_room_iff exhausted member positive
  rw [demandAt, totalOf_congr whole] at room
  rw [← room]
  apply exists_congr
  intro other
  apply and_congr_right
  intro inBuys
  apply and_congr_right
  intro _
  rw [← not_iff_not, not_not, not_lt]
  constructor
  · exact fun filled => (filled_iff.mpr filled).ge
  · exact fun full => filled_iff.mp
      ((fair.buying.bounded other inBuys).antisymm full)

/-- What the sell orders which accept a price give. -/
theorem offered_standing
    (facts : QueueFacts instrumentId start queues)
    (staged : Staged instrumentId known start queues context paired bought
      served after early sold reached)
    (idle : paired.heap = start.heap) (order : Order) :
    demandAt (standing (start.book.restingOn .buy)) served.heap.remaining
        (queues.marketSells ++ unfilledIn paired.heap queues.limitSells)
        (standing (start.book.restingOn .buy) order) =
      totalOf Order.quantity (fun sell => sell.limit ≤ order.limit)
        queues.sells := by
  have takers : unfilledIn paired.heap queues.limitSells =
      queues.limitSells := by
    rw [idle]
    exact unfilledIn_start facts fun order member =>
      List.mem_append_right _ (List.mem_append_right _ member)
  have whole : ∀ sell ∈ queues.sells,
      served.heap.remaining sell = sell.quantity := by
    intro sell inSells
    rw [(staged.buys.fresh_sells facts staged.pairing inSells).remaining,
      idle]
    exact facts.unfilled sell (List.mem_append_right _ inSells)
  rw [takers]
  show demandAt _ _ queues.sells _ = _
  rw [demandAt, totalOf_congr whole, totalOf, totalOf]
  congr 2
  apply List.filter_congr
  intro sell inSells
  have junior := facts.junior (List.mem_append_right _ inSells)
  apply decide_eq_decide.mpr
  rw [← not_lt, standing_lt_iff junior, not_lt]

/-- What the bids which rested before take at a price. -/
theorem senior_taken
    (facts : QueueFacts instrumentId start queues)
    (staged : Staged instrumentId known start queues context paired bought
      served after early sold reached) (price : ℚ) :
    demandAt Order.limit served.heap.remaining
        (start.book.restingOn .buy) price =
      demandAt Order.limit start.heap.remaining
        (start.book.restingOn .buy) price := by
  apply totalOf_congr
  exact fun senior member => senior_remaining facts staged member

/-- What is sold to the batch is beyond what the seniors take. -/
theorem taken_lt_offered
    (facts : QueueFacts instrumentId start queues)
    (staged : Staged instrumentId known start queues context paired bought
      served after early sold reached)
    (idle : paired.heap = start.heap) (member : order ∈ queues.buys)
    (touched : 0 < filledSince served.heap after.heap order) :
    demandAt Order.limit start.heap.remaining
        (start.book.restingOn .buy) order.limit <
      totalOf Order.quantity (fun sell => sell.limit ≤ order.limit)
        queues.sells := by
  have queued := staged.buys.bids facts staged.pairing
  have invariant := staged.buys.marketBuying.invariant
  have positive : ∀ bid ∈ served.book.restingOn .buy,
      0 ≤ served.heap.remaining bid := fun bid isBid =>
    (invariant.quantities.positive bid
      (OrderBook.mem_resting_of_mem isBid)).le
  have seniors : demandAt Order.limit served.heap.remaining
        (start.book.restingOn .buy) order.limit ≤
      supplyAt (standing (start.book.restingOn .buy))
        served.heap.remaining (served.book.restingOn .buy)
        (toLex (-order.limit, false)) := by
    refine le_trans ?_ (totalOf_sublist queued.kept positive)
    apply totalOf_le_totalOf
    · exact fun bid isBid => positive bid (queued.kept.subset isBid)
    · intro bid isBid within
      apply decide_eq_true
      rw [standing, decide_eq_false (not_not.mpr isBid),
        Prod.Lex.toLex_le_toLex]
      rcases (of_decide_eq_true within).lt_or_eq with below | equal
      · exact Or.inl (neg_lt_neg below)
      · exact Or.inr ⟨congrArg Neg.neg equal.symm, le_rfl⟩
  have beyond : toLex (-order.limit, false) <
      standing (start.book.restingOn .buy) order := by
    rw [standing, decide_eq_true
      (facts.junior (List.mem_append_left _ member)),
      Prod.Lex.toLex_lt_toLex]
    exact Or.inr ⟨rfl, Bool.false_lt_true⟩
  calc
    demandAt Order.limit start.heap.remaining
          (start.book.restingOn .buy) order.limit
        = demandAt Order.limit served.heap.remaining
          (start.book.restingOn .buy) order.limit :=
      (senior_taken facts staged _).symm
    _ ≤ _ := seniors
    _ < _ := staged.selling_fair.supplyAt_lt_demandAt
      (staged.sold_to facts member touched).1 beyond touched
    _ = _ := offered_standing facts staged idle order

/-- A buy order which is left is reached past the seniors. -/
theorem sold_of_taken_lt_offered
    (facts : QueueFacts instrumentId start queues)
    (staged : Staged instrumentId known start queues context paired bought
      served after early sold reached)
    (idle : paired.heap = start.heap) (member : order ∈ queues.limitBuys)
    (left : ¬ order.IsFilled bought.heap)
    (more : demandAt Order.limit start.heap.remaining
        (start.book.restingOn .buy) order.limit <
      totalOf Order.quantity (fun sell => sell.limit ≤ order.limit)
        queues.sells) :
    SoldToBatch queues served after := by
  have isBuy : order ∈ queues.buys := List.mem_append_left _ member
  have queued := staged.buys.bids facts staged.pairing
  have fair := staged.selling_fair
  by_contra untouched
  have joined : ∀ bid ∈ leftIn bought.heap
      (unfilledIn paired.heap queues.limitBuys),
        bid ∈ queues.limitBuys := fun bid inLeft =>
    (mem_unfilledIn.mp (List.mem_filter.mp inLeft).1).1
  have nothing : ∀ bid ∈ leftIn bought.heap
      (unfilledIn paired.heap queues.limitBuys),
        filledSince served.heap after.heap bid = 0 := by
    intro bid inLeft
    have isBid : bid ∈ served.book.restingOn .buy :=
      queued.own.mem_iff.mpr (List.mem_append_right _ inLeft)
    apply le_antisymm _ (fair.selling.nonnegative bid isBid)
    exact not_lt.mp fun positive => untouched
      ⟨bid, List.mem_append_left _ (joined bid inLeft), positive⟩
  have waits : order ∈ leftIn bought.heap
      (unfilledIn paired.heap queues.limitBuys) := by
    apply List.mem_filter.mpr
    refine ⟨?_, decide_eq_true ⟨facts.limits order
      (List.mem_append_left _ member), left⟩⟩
    rw [idle, unfilledIn_start facts fun order member =>
      List.mem_append_left _ (List.mem_append_left _ member)]
    exact member
  have isBid : order ∈ served.book.restingOn .buy :=
    queued.own.mem_iff.mpr (List.mem_append_right _ waits)
  have room : filledSince served.heap after.heap order <
      served.heap.remaining order := by
    rw [nothing order waits]
    exact staged.buys.marketBuying.invariant.quantities.positive order
      (OrderBook.mem_resting_of_mem isBid)
  have given := fair.demandAt_le staged.selling_exhausted isBid room
  rw [offered_standing facts staged idle order, totalOf_perm queued.own,
    totalOf_append] at given
  have ofJoined : totalOf (filledSince served.heap after.heap)
      (fun other => standing (start.book.restingOn .buy) other ≤
        standing (start.book.restingOn .buy) order)
      (leftIn bought.heap (unfilledIn paired.heap queues.limitBuys)) = 0 :=
    List.sum_eq_zero fun value inList => by
      rcases List.mem_map.mp inList with ⟨bid, inFilter, rfl⟩
      exact nothing bid (List.mem_filter.mp inFilter).1
  have bounded : ∀ bid ∈ start.book.restingOn .buy,
      filledSince served.heap after.heap bid ≤
        served.heap.remaining bid := fun bid senior =>
    fair.selling.bounded bid (queued.kept.subset senior)
  apply absurd more (not_lt.mpr _)
  calc
    totalOf Order.quantity (fun sell => sell.limit ≤ order.limit)
        queues.sells
      ≤ totalOf (filledSince served.heap after.heap)
        (fun other => standing (start.book.restingOn .buy) other ≤
          standing (start.book.restingOn .buy) order)
        (start.book.restingOn .buy) := by
      rw [ofJoined, add_zero] at given
      exact given
    _ ≤ totalOf served.heap.remaining
        (fun other => standing (start.book.restingOn .buy) other ≤
          standing (start.book.restingOn .buy) order)
        (start.book.restingOn .buy) := totalOf_mono bounded
    _ ≤ demandAt Order.limit served.heap.remaining
        (start.book.restingOn .buy) order.limit := by
      apply totalOf_le_totalOf
      · intro bid senior
        exact (fair.selling.nonnegative bid
          (queued.kept.subset senior)).trans (bounded bid senior)
      · intro bid _ within
        apply decide_eq_true
        rcases standing_le_iff.mp (of_decide_eq_true within) with
          above | ⟨equal, _⟩
        · exact above.le
        · exact equal.le
    _ = demandAt Order.limit start.heap.remaining
        (start.book.restingOn .buy) order.limit :=
      senior_taken facts staged _

/-- When the sell orders meet the buy orders of their batch. -/
theorem soldToBatch_iff
    (facts : QueueFacts instrumentId start queues)
    (staged : Staged instrumentId known start queues context paired bought
      served after early sold reached) :
    SoldToBatch queues served after ↔
      queues.marketSells ≠ [] ∧ ∃ buy ∈ queues.limitBuys,
        supplyAt Order.limit start.heap.remaining
            (start.book.restingOn .sell) buy.limit <
          totalOf Order.quantity
            (fun other => buy.limit ≤ other.limit) queues.limitBuys ∧
        demandAt Order.limit start.heap.remaining
            (start.book.restingOn .buy) buy.limit <
          totalOf Order.quantity
            (fun sell => sell.limit ≤ buy.limit) queues.sells := by
  constructor
  · rintro ⟨order, member, touched⟩
    have market := marketSells_of_sold facts staged member touched
    have idle := staged.pairing.idle market
    rcases staged.sold_to facts member touched with ⟨_, taken, left⟩
    have limit := (mem_unfilledIn.mp taken).1
    refine ⟨market, order, limit, ?_, ?_⟩
    · exact (bought_room_iff facts staged idle limit).mp
        ⟨order, limit, rfl, left⟩
    · exact taken_lt_offered facts staged idle member touched
  · rintro ⟨market, order, member, unserved, more⟩
    have idle := staged.pairing.idle market
    rcases (bought_room_iff facts staged idle member).mpr unserved with
      ⟨other, otherMember, same, left⟩
    rw [← same] at more
    exact sold_of_taken_lt_offered facts staged idle otherMember left more

end Staged

/-! ## The orders in the order of their submission -/

namespace QueueFacts

variable {orders : List Order} {price : ℚ}

/-- A sell order of the batch refuses the prices below its limit. -/
theorem refuses_iff (facts : QueueFacts instrumentId start queues)
    (member : order ∈ queues.sells) (positive : 0 < price) :
    ¬ order.Refuses price ↔ order.limit ≤ price := by
  rcases List.mem_append.mp member with market | limit
  · have noPrice := facts.noPrice order (List.mem_append_right _ market)
    rw [Order.limit_of_noPrice noPrice]
    exact iff_of_true (Order.not_refuses noPrice price) positive.le
  · have priced := (facts.limits order
      (List.mem_append_right _ limit)).price_eq
    rw [order.refuses_iff, priced, facts.isSell order member]
    constructor
    · exact fun accepts => not_lt.mp fun below =>
        accepts ⟨_, rfl, below⟩
    · rintro within ⟨_, equal, below⟩
      rcases Option.some.inj equal with rfl
      exact absurd within (not_le.mpr below)

theorem not_limit_of_market (facts : QueueFacts instrumentId start queues)
    (member : order ∈ queues.marketBuys ++ queues.marketSells) :
    ¬ order.IsLimitOrder := by
  intro isLimit
  have priced := isLimit.price_eq
  rw [facts.noPrice order member] at priced
  cases priced

theorem not_buy_of_sell (facts : QueueFacts instrumentId start queues)
    (member : order ∈ queues.sells) : order.side ≠ .buy := by
  rw [facts.isSell order member]
  nofun

theorem not_sell_of_buy (facts : QueueFacts instrumentId start queues)
    (member : order ∈ queues.buys) : order.side ≠ .sell := by
  rw [facts.isBuy order member]
  nofun

theorem wantedAt_eq (facts : QueueFacts instrumentId start queues)
    (perm : orders.Perm (queues.buys ++ queues.sells)) :
    wantedAt orders price =
      totalOf Order.quantity (fun buy => price ≤ buy.limit)
        queues.limitBuys := by
  rw [BatchQueues.buys, List.append_assoc] at perm
  apply totalOf_group perm
  · intro buy member
    apply decide_eq_decide.mpr
    constructor
    · exact fun both => both.2.2
    · exact fun within =>
        ⟨facts.isBuy buy (List.mem_append_left _ member),
          facts.limits buy (List.mem_append_left _ member), within⟩
  · intro other member both
    have wanted := of_decide_eq_true both
    rcases List.mem_append.mp member with market | sell
    · exact facts.not_limit_of_market (List.mem_append_left _ market)
        wanted.2.1
    · exact facts.not_buy_of_sell sell wanted.1

theorem offeredAt_eq (facts : QueueFacts instrumentId start queues)
    (perm : orders.Perm (queues.buys ++ queues.sells))
    (positive : 0 < price) :
    offeredAt orders price =
      totalOf Order.quantity (fun sell => sell.limit ≤ price)
        queues.sells := by
  apply totalOf_group (perm.trans List.perm_append_comm)
  · intro sell member
    apply decide_eq_decide.mpr
    rw [facts.refuses_iff member positive]
    exact and_iff_right (facts.isSell sell member)
  · intro buy member both
    exact facts.not_sell_of_buy member (of_decide_eq_true both).1

theorem exists_marketSell_iff
    (facts : QueueFacts instrumentId start queues)
    (perm : orders.Perm (queues.buys ++ queues.sells)) :
    (∃ sell ∈ orders, sell.side = .sell ∧ sell.price = none) ↔
      queues.marketSells ≠ [] := by
  constructor
  · rintro ⟨sell, member, isSell, noPrice⟩ none
    rcases List.mem_append.mp (perm.mem_iff.mp member) with buy | inSells
    · exact facts.not_sell_of_buy buy isSell
    · rw [BatchQueues.sells, none, List.nil_append] at inSells
      have priced := (facts.limits sell
        (List.mem_append_right _ inSells)).price_eq
      rw [noPrice] at priced
      cases priced
  · intro some_
    rcases List.exists_mem_of_ne_nil _ some_ with ⟨sell, member⟩
    have inSells : sell ∈ queues.sells := List.mem_append_left _ member
    exact ⟨sell, perm.mem_iff.mpr (List.mem_append_right _ inSells),
      facts.isSell sell inSells,
      facts.noPrice sell (List.mem_append_right _ member)⟩

theorem mem_limitBuys_iff (facts : QueueFacts instrumentId start queues)
    (perm : orders.Perm (queues.buys ++ queues.sells)) :
    order ∈ queues.limitBuys ↔
      order ∈ orders ∧ order.side = .buy ∧ order.IsLimitOrder := by
  constructor
  · intro member
    have isBuy : order ∈ queues.buys := List.mem_append_left _ member
    exact ⟨perm.mem_iff.mpr (List.mem_append_left _ isBuy),
      facts.isBuy order isBuy,
      facts.limits order (List.mem_append_left _ member)⟩
  · rintro ⟨member, isBuy, isLimit⟩
    rcases List.mem_append.mp (perm.mem_iff.mp member) with buy | sell
    · rcases List.mem_append.mp buy with limit | market
      · exact limit
      · exact absurd isLimit
          (facts.not_limit_of_market (List.mem_append_left _ market))
    · exact absurd isBuy (facts.not_buy_of_sell sell)

end QueueFacts

/-- The sell orders meet the batch exactly when the batch meets itself. -/
theorem Staged.meetsItself_iff {orders : List Order}
    (facts : QueueFacts instrumentId start queues)
    (perm : orders.Perm (queues.buys ++ queues.sells))
    (staged : Staged instrumentId known start queues context paired bought
      served after early sold reached) :
    MeetsItself start.heap start.book orders ↔
      SoldToBatch queues served after := by
  rw [staged.soldToBatch_iff facts, MeetsItself,
    facts.exists_marketSell_iff perm]
  apply and_congr_right
  intro _
  apply exists_congr
  intro buy
  rw [facts.mem_limitBuys_iff perm, and_assoc, and_assoc]
  apply and_congr_right
  intro _
  apply and_congr_right
  intro _
  apply and_congr_right
  intro isLimit
  rw [facts.wantedAt_eq perm, facts.offeredAt_eq perm
    isLimit.limit_positive]

end OneInstrument

end InternTradingGame
