import InternTradingGame.Exchange.TradeLog
import InternTradingGame.Exchange.BatchInstruments

/-!
# Does a batch trade through?

A trade passes a better order over when that order is on a side of the
trade, has a better limit and is not filled yet.  The pairing loop looks at
the collected orders only, so it passes over an order of the book as soon as
it reaches beyond the limit of that order.  What is left of the collected
orders is added to the book and passes nobody over.
-/

namespace InternTradingGame

open Effects Clearing Sequences

/-! ## Priority at every trade -/

/-- At the trade all better orders of both sides have been filled. -/
def AtBest (base : Heap) (present : Order → Prop) (earlier : List Trade)
    (trade : Trade) : Prop :=
  ∃ buy sell, present buy ∧ present sell ∧ TradeBetween trade buy sell ∧
    ∀ other, present other → other.instrumentId = trade.instrumentId →
      (other.side = .sell → other.limit < sell.limit →
          leftAfter base earlier other = 0) ∧
        (other.side = .buy → buy.limit < other.limit →
          leftAfter base earlier other = 0)

/-- No trade passes over a better order which has something left. -/
def NoTradeThrough (base : Heap) (present : Order → Prop)
    (made : List Trade) : Prop :=
  AtEach (AtBest base present) made

/--
The collected buy and sell orders of an instrument do not trade beyond the
orders which rest in its book: whenever a sell order has a worse limit than
a resting one, the buy orders which would pay that limit want no more than
the sell orders up to the limit of the resting order give, and the same for
buy orders.
-/
structure WithinBook (quantity : Order → ℚ)
    (resting buys sells : List Order) : Prop where
  selling : ∀ ask ∈ resting, ask.side = .sell → ∀ sell ∈ sells,
    ask.limit < sell.limit →
      demandAt Order.limit quantity buys sell.limit ≤
        supplyAt Order.limit quantity sells ask.limit
  buying : ∀ bid ∈ resting, bid.side = .buy → ∀ buy ∈ buys,
    buy.limit < bid.limit →
      supplyAt Order.limit quantity sells buy.limit ≤
        demandAt Order.limit quantity buys bid.limit

instance (quantity : Order → ℚ) (resting buys sells : List Order) :
    Decidable (WithinBook quantity resting buys sells) :=
  decidable_of_iff (_ ∧ _)
    ⟨fun both => ⟨both.1, both.2⟩,
      fun within => ⟨within.selling, within.buying⟩⟩

/-! ## One book -/

section OneBook

variable {instrumentId : String} {start paired bought reached : BookState}
  {buys sells orders : List Order} {market now : Market}
  {made : List Trade} {buyOrder sellOrder order : Order} {trade : Trade}
  {fill : Fill}

/-- The orders which meet when a batch is matched. -/
def Present (start : BookState) (orders : List Order) (order : Order) :
    Prop :=
  order ∈ start.book.resting ∨ order ∈ orders

/-- A trade at which the better orders are filled in the heap. -/
theorem Logged.atBest {base heap : Heap} {parties present : Order → Prop}
    (logged : Logged base parties made heap)
    (between : TradeBetween trade buyOrder sellOrder)
    (buyPresent : present buyOrder) (sellPresent : present sellOrder)
    (better : ∀ other, present other →
      (other.side = .sell → other.limit < sellOrder.limit →
          other.IsFilled heap) ∧
        (other.side = .buy → buyOrder.limit < other.limit →
          other.IsFilled heap)) :
    AtBest base present made trade := by
  refine ⟨buyOrder, sellOrder, buyPresent, sellPresent, between, ?_⟩
  intro other isPresent _
  have filled := better other isPresent
  rw [Order.IsFilled, logged.remaining] at filled
  exact filled

/-- The collected orders of a side. -/
theorem BatchFacts.side_mem
    (facts : BatchFacts instrumentId start buys sells)
    (member : order ∈ buys ++ sells) :
    (order.side = .buy → order ∈ buys) ∧
      (order.side = .sell → order ∈ sells) := by
  constructor
  · intro isBuy
    rcases List.mem_append.mp member with inBuys | inSells
    · exact inBuys
    · rw [facts.isSell order inSells] at isBuy
      cases isBuy
  · intro isSell
    rcases List.mem_append.mp member with inBuys | inSells
    · rw [facts.isBuy order inBuys] at isSell
      cases isSell
    · exact inSells

/-- The trade of a pair is one between its two orders. -/
theorem PairMade.between
    (facts : BatchFacts instrumentId start buys sells)
    (pair : PairMade market buys sells buyOrder sellOrder trade now) :
    TradeBetween trade buyOrder sellOrder := by
  rcases pair.inTurn with ⟨_, _, pairing⟩
  have buyMember := pairing.heads.1.1
  have sellMember := pairing.heads.2.1
  rcases pair.crosses with ⟨bid, ask, bidPriced, askPriced, inside⟩
  have buyInside := facts.instrument buyOrder
    (List.mem_append_left _ buyMember)
  have sellInside := facts.instrument sellOrder
    (List.mem_append_right _ sellMember)
  exact (createTrade_between (facts.isBuy buyOrder buyMember)
    (facts.isSell sellOrder sellMember)
    (sellInside.trans buyInside.symm) bidPriced askPriced inside
    pair.created).1

/-- The orders of a pair have been filled a little by its trade. -/
theorem PairMade.served
    (sides : BatchSides market.heap buys sells)
    (pair : PairMade market buys sells buyOrder sellOrder trade now) :
    let after :=
      (BatchMatchingEngine.settleTrade trade buyOrder sellOrder now).heap
    Fair Order.limit market.heap.remaining
        (filledSince market.heap after) buys sells ∧
      0 < filledSince market.heap after buyOrder ∧
      0 < filledSince market.heap after sellOrder := by
  rcases pair.inTurn with ⟨_, _, pairing⟩
  have buyMember := pairing.heads.1.1
  have sellMember := pairing.heads.2.1
  have different := orderId_apart sides.distinct buyMember sellMember
  have settles := @settleTrade_settles _ _ trade now different
  have grown : ∀ order, order ∈ buys ++ sells →
      order.orderId = buyOrder.orderId ∨
          order.orderId = sellOrder.orderId →
        0 < filledSince market.heap
          (BatchMatchingEngine.settleTrade trade buyOrder sellOrder
            now).heap order := by
    intro order member isOne
    have before := (pairing.filled.bounds member).1
    rw [filledSince, settles.remaining, if_pos isOne]
    rw [filledSince] at before
    linarith [trade.quantity_positive]
  exact ⟨(pairing.step sides pair.crosses pair.created).filled.fair,
    grown buyOrder (List.mem_append_left _ buyMember) (Or.inl rfl),
    grown sellOrder (List.mem_append_right _ sellMember) (Or.inr rfl)⟩

/-- A pair within the book passes nobody over. -/
theorem PairMade.atBest
    (facts : BatchFacts instrumentId start buys sells)
    (same : market.heap = start.heap)
    (within : WithinBook start.heap.remaining start.book.resting buys
      sells)
    (pair : PairMade market buys sells buyOrder sellOrder trade now)
    {parties : Order → Prop}
    (logged : Logged start.heap parties made now.heap) :
    AtBest start.heap (Present start (buys ++ sells)) made trade := by
  have sides := facts.sides
  rw [← same] at sides
  rcases pair.inTurn with ⟨_, _, pairing⟩
  have buyMember := pairing.heads.1.1
  have sellMember := pairing.heads.2.1
  rcases pair.served sides with ⟨fair, buyServed, sellServed⟩
  rw [same] at fair buyServed sellServed
  apply logged.atBest (pair.between facts)
    (Or.inr (List.mem_append_left _ buyMember))
    (Or.inr (List.mem_append_right _ sellMember))
  rintro other (resting | collected)
  · constructor
    · intro isSell better
      have more := fair.supplyAt_lt_demandAt sellMember better sellServed
      exact absurd (within.selling other resting isSell sellOrder
        sellMember better) (not_le.mpr more)
    · intro isBuy better
      have more := fair.demandAt_lt_supplyAt buyMember better buyServed
      exact absurd (within.buying other resting isBuy buyOrder buyMember
        better) (not_le.mpr more)
  · have sideOf := facts.side_mem collected
    exact ⟨fun isSell better =>
        (pairing.better sides).2 other (sideOf.2 isSell) better,
      fun isBuy better =>
        (pairing.better sides).1 other (sideOf.1 isBuy) better⟩

/-- What is left of a buy order passes nobody over. -/
theorem Paired.atBest_buying
    (facts : BatchFacts instrumentId start buys sells)
    (before : Paired start buys sells paired)
    (taken : TakerTrade .buy buys (start.book.restingOn .sell) []
      paired.heap order fill reached)
    {parties : Order → Prop}
    (logged : Logged start.heap parties made reached.heap) :
    AtBest start.heap (Present start (buys ++ sells)) made
      fill.trade := by
  have sides := before.takingSides facts
  have shape := facts.invariant.shape
  have taker := taken.taker
  have maker := taken.maker sides
  have crosses : fill.matching.limit ≤ order.limit := taken.crosses sides
  apply logged.atBest
    ((taken.next.between taken.shape taken.instrument).1
      (facts.isBuy order taker.1))
    (Or.inr (List.mem_append_left _ taker.1))
    (Or.inl (OrderBook.mem_resting_of_mem maker))
  rintro other (resting | collected)
  · constructor
    · intro isSell better
      exact taken.better_makers sides
        (shape.mem_restingOn resting isSell) better
    · intro isBuy better
      have apart := shape.uncrossed_limits
        (shape.mem_restingOn resting isBuy) maker
      exact absurd (crosses.trans better.le) (not_le.mpr apart)
  · have sideOf := facts.side_mem collected
    constructor
    · intro isSell better
      have member := sideOf.2 isSell
      by_contra open_
      have untouched : reached.heap.remaining other =
          paired.heap.remaining other :=
        taken.filled.unchanged fun party inBuying =>
          facts.apart (List.mem_append_left _ member) inBuying
      rw [Order.IsFilled, untouched] at open_
      have apart := before.clears.exhausted order taker.1 other member
        (before.clears.filled.lt_of_unfilled
          (List.mem_append_left _ taker.1) taker.2)
        (before.clears.filled.lt_of_unfilled
          (List.mem_append_right _ member) open_)
      exact absurd (better.le.trans crosses) (not_le.mpr apart)
    · intro isBuy better
      exact taken.better_takers sides (sideOf.1 isBuy) better

/-- What is left of a sell order passes nobody over. -/
theorem Bought.atBest_selling
    (facts : BatchFacts instrumentId start buys sells)
    (before : Paired start buys sells paired)
    (state : Bought instrumentId start buys sells paired.heap bought)
    (taken : TakerTrade .sell sells (start.book.restingOn .buy)
      (unfilledIn paired.heap buys) bought.heap order fill reached)
    {parties : Order → Prop}
    (logged : Logged start.heap parties made reached.heap) :
    AtBest start.heap (Present start (buys ++ sells)) made
      fill.trade := by
  have sides := state.takingSides facts before
  have shape := facts.invariant.shape
  have taker := taken.taker
  have maker := taken.maker sides
  have crosses : order.limit ≤ fill.matching.limit :=
    neg_le_neg_iff.mp (taken.crosses sides)
  apply logged.atBest
    ((taken.next.between taken.shape taken.instrument).2
      (facts.isSell order taker.1))
    (Or.inl (OrderBook.mem_resting_of_mem maker))
    (Or.inr (List.mem_append_right _ taker.1))
  rintro other (resting | collected)
  · constructor
    · intro isSell better
      have apart := shape.uncrossed_limits maker
        (shape.mem_restingOn resting isSell)
      exact absurd (better.le.trans crosses) (not_le.mpr apart)
    · intro isBuy better
      exact taken.better_makers sides
        (shape.mem_restingOn resting isBuy) (neg_lt_neg better)
  · have sideOf := facts.side_mem collected
    constructor
    · intro isSell better
      exact taken.better_takers sides (sideOf.2 isSell)
        (neg_lt_neg better)
    · intro isBuy better
      have member := sideOf.1 isBuy
      by_contra open_
      have untouched : reached.heap.remaining other =
          bought.heap.remaining other :=
        taken.filled.unchanged fun party inSelling =>
          (facts.apart inSelling (List.mem_append_left _ member)).symm
      rw [Order.IsFilled, untouched] at open_
      have takerOpen := taker.2
      rw [Order.IsFilled, state.untouched facts order
        (List.mem_append_left _ taker.1)] at takerOpen
      have apart := before.clears.exhausted other member order taker.1
        (before.clears.filled.lt_of_unfilled
          (List.mem_append_left _ member)
          (state.clears.filled.unfilled_before
            (List.mem_append_left _ member) open_))
        (before.clears.filled.lt_of_unfilled
          (List.mem_append_right _ taker.1) takerOpen)
      exact absurd (crosses.trans better.le) (not_le.mpr apart)

/-- The orders which meet are told apart by their ids. -/
theorem BatchFacts.eq_of_orderId_eq
    (facts : BatchFacts instrumentId start buys sells)
    {first second : Order}
    (firstPresent : Present start (buys ++ sells) first)
    (secondPresent : Present start (buys ++ sells) second)
    (equal : first.orderId = second.orderId) : first = second := by
  have inAll : ∀ order, Present start (buys ++ sells) order →
      order ∈ (buys ++ sells) ++ start.book.resting := by
    rintro order (resting | collected)
    · exact List.mem_append_right _ resting
    · exact List.mem_append_left _ collected
  exact List.inj_on_of_nodup_map facts.distinct (inAll _ firstPresent)
    (inAll _ secondPresent) equal

/-- The pairs leave the resting orders what they have. -/
theorem Logged.leftAfter_resting {heap : Heap} {earlier : List Trade}
    (facts : BatchFacts instrumentId start buys sells)
    (logged : Logged start.heap (· ∈ buys ++ sells) made heap)
    (sub : ∀ trade ∈ earlier, trade ∈ made)
    (resting : order ∈ start.book.resting) :
    0 < leftAfter start.heap earlier order := by
  have unnamed : ∀ trade ∈ earlier, ¬ trade.Names order.orderId := by
    intro trade member names
    rcases logged.between trade (sub trade member) with
      ⟨buy, sell, buyMember, sellMember, between⟩
    rcases (between.names_iff _).mp names with isBuy | isSell
    · exact orderId_apart facts.distinct buyMember resting isBuy
    · exact orderId_apart facts.distinct sellMember resting isSell
  rw [leftAfter, tradedQuantity_eq_zero _ unnamed, sub_zero]
  exact facts.invariant.quantities.positive order resting

/-- An order which has been filled takes part in some trade. -/
theorem Logged.exists_trade {base heap : Heap} {parties : Order → Prop}
    (logged : Logged base parties made heap)
    (served : 0 < filledSince base heap order) :
    ∃ trade ∈ made, trade.Names order.orderId := by
  by_contra none
  have unnamed : ∀ trade ∈ made, ¬ trade.Names order.orderId :=
    fun trade member names => none ⟨trade, member, names⟩
  rw [filledSince, logged.remaining, leftAfter,
    tradedQuantity_eq_zero _ unnamed, sub_zero, sub_self] at served
  exact lt_irrefl _ served

/-- A pair served beyond a resting order has passed it over. -/
theorem Logged.not_noTradeThrough {heap : Heap} {served resting : Order}
    (facts : BatchFacts instrumentId start buys sells)
    (logged : Logged start.heap (· ∈ buys ++ sells) made heap)
    (collected : served ∈ buys ++ sells)
    (rests : resting ∈ start.book.resting)
    (sameSide : resting.side = served.side)
    (better : served.side.Better resting.limit served.limit)
    (filled : 0 < filledSince start.heap heap served) :
    ¬ NoTradeThrough start.heap (Present start (buys ++ sells)) made := by
  intro none
  rcases logged.exists_trade filled with ⟨trade, member, names⟩
  rcases List.append_of_mem member with ⟨earlier, later, rfl⟩
  rcases none earlier trade later rfl with
    ⟨buy, sell, buyPresent, sellPresent, between, others⟩
  have left := logged.leftAfter_resting facts
    (fun _ inEarlier => List.mem_append_left _ inEarlier) rests
  have passed := others resting (Or.inl rests) (by
    rw [facts.invariant.shape.instrument_of_mem rests, facts.named]
    rcases logged.between trade member with
      ⟨other, _, otherMember, _, isBetween⟩
    rw [isBetween.buyInstrument]
    exact (facts.instrument other otherMember).symm)
  rcases (between.names_iff _).mp names with isBuy | isSell
  · rcases facts.eq_of_orderId_eq buyPresent (Or.inr collected)
      isBuy with rfl
    rw [between.buySide] at sameSide better
    exact left.ne' (passed.2 sameSide better)
  · rcases facts.eq_of_orderId_eq sellPresent (Or.inr collected)
      isSell with rfl
    rw [between.sellSide] at sameSide better
    exact left.ne' (passed.1 sameSide better)

/-- A batch which reaches beyond its book passes somebody over. -/
theorem Paired.not_noTradeThrough
    (facts : BatchFacts instrumentId start buys sells)
    (state : Paired start buys sells paired)
    (logged : Logged start.heap (· ∈ buys ++ sells) made paired.heap)
    (beyond : ¬ WithinBook start.heap.remaining start.book.resting buys
      sells) :
    ¬ NoTradeThrough start.heap (Present start (buys ++ sells)) made := by
  intro none
  apply beyond
  have fair := state.clears.filled.fair
  have positive := facts.sides.unfilled
  constructor
  · intro ask resting isSell sell member better
    by_contra more
    rcases fair.exists_filled_ask state.clears.exhausted member
        (positive sell (List.mem_append_right _ member)) better
        (not_le.mp more) with ⟨served, servedMember, worse, filled⟩
    have side := facts.isSell served servedMember
    refine logged.not_noTradeThrough facts
      (List.mem_append_right _ servedMember) resting
      (isSell.trans side.symm) ?_ filled none
    rw [side]
    exact worse
  · intro bid resting isBuy buy member better
    by_contra more
    rcases fair.exists_filled_bid state.clears.exhausted member
        (positive buy (List.mem_append_left _ member)) better
        (not_le.mp more) with ⟨served, servedMember, worse, filled⟩
    have side := facts.isBuy served servedMember
    refine logged.not_noTradeThrough facts
      (List.mem_append_left _ servedMember) resting
      (isBuy.trans side.symm) ?_ filled none
    rw [side]
    exact worse

/-! ### The trades of one instrument -/

/-- The trades since a heap, at the best prices if a condition holds. -/
def LoggedAtBest (base : Heap) (present parties : Order → Prop)
    (condition : Prop) (before : List Trade) (heap : Heap) : Prop :=
  ∃ since, Logged base parties (before ++ since) heap ∧
    (condition → NoTradeThrough base present (before ++ since))

/-- One more trade at the best prices. -/
theorem LoggedAtBest.step {base heap after : Heap}
    {present parties : Order → Prop} {condition : Prop}
    {before : List Trade} {first second : Order}
    (sofar : LoggedAtBest base present parties condition before heap)
    (settles : Settles trade first second heap after)
    (between : TradeBetween trade buyOrder sellOrder)
    (same : first = buyOrder ∧ second = sellOrder ∨
      first = sellOrder ∧ second = buyOrder)
    (buyParty : parties buyOrder) (sellParty : parties sellOrder)
    (atBest : ∀ made, Logged base parties made heap → condition →
      AtBest base present made trade) :
    LoggedAtBest base present parties condition before after := by
  rcases sofar with ⟨since, logged, none⟩
  refine ⟨since ++ [trade], ?_, ?_⟩
  · rw [← List.append_assoc]
    exact logged.step settles between same buyParty sellParty
  · intro holds
    rw [← List.append_assoc]
    exact (none holds).concat (atBest _ logged holds)

/-- The trades since a book was found are all at the best prices or not. -/
def MatchedAtBest (start : BookState) (orders : List Order)
    (condition : Prop) (heap : Heap) : Prop :=
  ∃ made, Logged start.heap (Present start orders) made heap ∧
    (NoTradeThrough start.heap (Present start orders) made ↔ condition)

variable {context : BatchContext}

/-- The two sides are paired, and what is left is added to the book. -/
theorem pairThenAdd_atBest
    (facts : BatchFacts instrumentId start buys sells)
    (has : HasBook instrumentId context start) :
    Ends
      (do
        let left ←
          BatchMatchingEngine.pairOrders (buys.length + sells.length + 1)
            buys sells
        BatchMatchingEngine.addOrdersToBook instrumentId
          (left.1 ++ left.2))
      context
      (fun _ reached =>
        MatchedAtBest start (buys ++ sells)
          (WithinBook start.heap.remaining start.book.resting buys sells)
          reached.market.heap)
      (fun _ _ => False) := by
  have sides := facts.sides
  rw [← has.heap] at sides
  have pairs := pairOrders_cleared context sides (Nat.lt_succ_self _)
    (LoggedAtBest start.heap (Present start (buys ++ sells))
      (· ∈ buys ++ sells)
      (WithinBook start.heap.remaining start.book.resting buys sells) [])
    (by
      rw [has.heap]
      exact ⟨[], Logged.refl _ _, fun _ => atEach_nil⟩)
    (by
      intro buyOrder sellOrder trade now pair sofar
      rcases pair.inTurn with ⟨_, _, pairing⟩
      have buyMember := pairing.heads.1.1
      have sellMember := pairing.heads.2.1
      exact sofar.step
        (settleTrade_settles
          (orderId_apart sides.distinct buyMember sellMember))
        (pair.between facts) (Or.inl ⟨rfl, rfl⟩)
        (List.mem_append_left _ buyMember)
        (List.mem_append_right _ sellMember)
        fun made logged within =>
          pair.atBest facts has.heap within logged)
  apply pairs.bind
  rintro left middle ⟨cleared, made, logged, none⟩
  rw [List.nil_append] at logged none
  rcases cleared.pairing.levels _ _ has.found with
    ⟨book, found, same, levels⟩
  rw [cleared.pairing.buying, cleared.pairing.selling]
  have clears : Clears start.heap Order.limit buys sells
      middle.market.heap := by
    rw [← has.heap]
    exact ⟨cleared.pairing.filled, cleared.exhausted⟩
  have before : Paired start buys sells ⟨middle.market.heap, book⟩ :=
    ⟨clears, cleared.pairing.whole, same, levels⟩
  have adding := addLeft facts before ⟨found, rfl⟩
    (LoggedAtBest start.heap (Present start (buys ++ sells))
      (Present start (buys ++ sells))
      (WithinBook start.heap.remaining start.book.resting buys sells)
      made)
    ⟨[], by
      rw [List.append_nil]
      exact ⟨logged.mono fun _ member => Or.inr member, none⟩⟩
    (by
      intro order fill reached taken sofar
      have sides := before.takingSides facts
      have taker := taken.taker
      exact sofar.step taken.settles
        ((taken.next.between taken.shape taken.instrument).1
          (facts.isBuy order taker.1))
        (Or.inl ⟨rfl, rfl⟩)
        (Or.inr (List.mem_append_left _ taker.1))
        (Or.inl (OrderBook.mem_resting_of_mem (taken.maker sides)))
        fun _ logged _ => before.atBest_buying facts taken logged)
    (by
      intro bought order fill reached state taken sofar
      have sides := state.takingSides facts before
      have taker := taken.taker
      exact sofar.step taken.settles
        ((taken.next.between taken.shape taken.instrument).2
          (facts.isSell order taker.1))
        (Or.inr ⟨rfl, rfl⟩)
        (Or.inl (OrderBook.mem_resting_of_mem (taken.maker sides)))
        (Or.inr (List.mem_append_right _ taker.1))
        fun _ logged _ => state.atBest_selling facts before taken logged)
  refine adding.mono ?_ fun _ _ impossible => impossible
  rintro _ last ⟨bought, after, hasAfter, _, since, allLogged, allNone⟩
  rw [hasAfter.heap]
  refine ⟨made ++ since, allLogged, ?_, allNone⟩
  intro noneAtAll
  by_contra beyond
  exact before.not_noTradeThrough facts logged beyond
    (atEach_append.mp noneAtAll).1

/-! ### The orders in the order of their submission -/

theorem present_perm (perm : orders.Perm (buys ++ sells)) :
    Present start (buys ++ sells) = Present start orders := by
  ext order
  exact or_congr Iff.rfl perm.mem_iff.symm

/-- The condition depends on the quantities at the limits only. -/
theorem withinBook_congr {quantity otherQuantity : Order → ℚ}
    {resting bids asks : List Order} (buying : buys.Perm bids)
    (selling : sells.Perm asks)
    (quantities : ∀ order ∈ buys ++ sells,
      quantity order = otherQuantity order) :
    WithinBook quantity resting buys sells ↔
      WithinBook otherQuantity resting bids asks := by
  have demand : ∀ value, demandAt Order.limit quantity buys value =
      demandAt Order.limit otherQuantity bids value :=
    fun _ => (totalOf_congr fun order member =>
      quantities order (List.mem_append_left _ member)).trans
        (totalOf_perm buying)
  have supply : ∀ value, supplyAt Order.limit quantity sells value =
      supplyAt Order.limit otherQuantity asks value :=
    fun _ => (totalOf_congr fun order member =>
      quantities order (List.mem_append_right _ member)).trans
        (totalOf_perm selling)
  constructor
  · intro within
    constructor
    · intro ask resting isSell sell member better
      rw [← demand, ← supply]
      exact within.selling ask resting isSell sell
        (selling.mem_iff.mpr member) better
    · intro bid resting isBuy buy member better
      rw [← demand, ← supply]
      exact within.buying bid resting isBuy buy
        (buying.mem_iff.mpr member) better
  · intro within
    constructor
    · intro ask resting isSell sell member better
      rw [demand, supply]
      exact within.selling ask resting isSell sell
        (selling.mem_iff.mp member) better
    · intro bid resting isBuy buy member better
      rw [demand, supply]
      exact within.buying bid resting isBuy buy
        (buying.mem_iff.mp member) better

/-- The collected orders stay within the orders which rest. -/
def CollectedWithin (resting orders : List Order) : Prop :=
  WithinBook Order.quantity resting
    (orders.filter fun order => order.side = .buy)
    (orders.filter fun order => order.side = .sell)

instance (resting orders : List Order) :
    Decidable (CollectedWithin resting orders) :=
  inferInstanceAs (Decidable (WithinBook ..))

/-- The trades of one instrument are at the best prices or not. -/
theorem matchInstrument_atBest (draw : String → ℚ)
    (has : HasBook instrumentId context start)
    (collected : CollectedFor instrumentId start orders)
    (invariant : BookInv start)
    (named : start.book.instrumentId = instrumentId) :
    Ends
      (BatchMatchingEngine.matchInstrument draw (instrumentId, orders))
      context
      (fun _ reached => MatchedAtBest start orders
        (CollectedWithin start.book.resting orders)
        reached.market.heap)
      (fun _ _ => False) := by
  have listed : context.market.orderBooks.Contains instrumentId :=
    OrderedDict.contains_of_get? has.found
  have perm := sides_perm draw orders
  rw [matchInstrument_eq, ends_get_bind, if_pos listed]
  refine (pairThenAdd_atBest (collected.facts draw invariant named)
    has).mono ?_ fun _ _ impossible => impossible
  rintro _ reached ⟨made, logged, none⟩
  rw [present_perm perm] at logged none
  refine ⟨made, logged, none.trans (withinBook_congr ?_ ?_ ?_)⟩
  · exact randomize_perm draw true _
  · exact randomize_perm draw false _
  · exact fun order member =>
      collected.unfilled order (perm.mem_iff.mpr member)

end OneBook

/-! ## The whole batch -/

section Whole

variable {market : Market} {pending : PendingOrders}

/-- The orders which meet in a batch, at all instruments. -/
def PresentIn (market : Market) (pending : PendingOrders) (order : Order) :
    Prop :=
  market.Rests order ∨ order ∈ ordersOf pending.entries

/-- No instrument of the batch reaches beyond its book. -/
def BatchWithin (market : Market) (collected : String × List Order) :
    Prop :=
  ∀ book, market.orderBooks.get? collected.1 = some book →
    CollectedWithin book.resting collected.2

instance (market : Market) (collected : String × List Order) :
    Decidable (BatchWithin market collected) :=
  inferInstanceAs
    (Decidable (∀ book ∈ market.orderBooks.get? collected.1, _))

theorem InTurn.collectedFor {instrumentId : String} {orders : List Order}
    {state : BookState} (turn : InTurn instrumentId orders state)
    (limits : ∀ order ∈ orders, order.IsLimitOrder) :
    CollectedFor instrumentId state orders :=
  ⟨turn.distinct, limits, turn.whole, turn.instrument, turn.unfilled,
    turn.absent⟩

/-- The orders of an instrument which meet are those of its book. -/
theorem present_iff {done later : List (String × List Order)}
    {collected : String × List Order} {book : OrderBook} {heap : Heap}
    (ready : BatchReady market pending)
    (split : pending.entries = done ++ collected :: later)
    (found : market.orderBooks.get? collected.1 = some book)
    {order : Order} (instrument : order.instrumentId = collected.1) :
    PresentIn market pending order ↔
      Present ⟨heap, book⟩ collected.2 order := by
  apply or_congr
  · constructor
    · rintro ⟨other, otherBook, otherFound, resting⟩
      have inside := ready.sound.shape.instrument_of_rests otherFound
        resting
      rw [← inside, instrument, found] at otherFound
      rcases Option.some.inj otherFound with rfl
      exact resting
    · exact fun resting => ⟨_, book, found, resting⟩
  · have member : collected ∈ pending.entries := by
      rw [split]
      exact List.mem_append_right _ List.mem_cons_self
    constructor
    · intro inBatch
      rcases List.mem_flatMap.mp inBatch with ⟨other, otherMember, inOther⟩
      have same : other.1 = collected.1 :=
        (ready.inside other otherMember order inOther).symm.trans
          instrument
      rw [split] at otherMember
      rcases List.mem_append.mp otherMember with before | behind
      · exact absurd same
          (entries_apart split other (List.mem_append_left _ before))
      · rcases List.mem_cons.mp behind with rfl | after
        · exact inOther
        · exact absurd same
            (entries_apart split other (List.mem_append_right _ after))
    · exact fun inOrders =>
        List.mem_flatMap.mpr ⟨collected, member, inOrders⟩

/-- Priority at a trade is a matter of its instrument alone. -/
theorem atBest_iff {base middle : Heap}
    {parties present own : Order → Prop} {instrumentId : String}
    {before earlier : List Trade} {trade : Trade}
    (logged : Logged base parties before middle)
    (inside : trade.instrumentId = instrumentId)
    (same : ∀ order, order.instrumentId = instrumentId →
      (present order ↔ own order)) :
    AtBest base present (before ++ earlier) trade ↔
      AtBest middle own earlier trade := by
  have left : ∀ order, leftAfter base (before ++ earlier) order =
      leftAfter middle earlier order := by
    intro order
    rw [leftAfter, leftAfter, logged.remaining, leftAfter,
      tradedQuantity_append, sub_sub]
  subst inside
  simp only [AtBest, left]
  constructor
  · rintro ⟨buy, sell, buyPresent, sellPresent, between, better⟩
    exact ⟨buy, sell,
      (same buy between.buyInstrument.symm).mp buyPresent,
      (same sell between.sellInstrument.symm).mp sellPresent, between,
      fun other isOwn inside =>
        better other ((same other inside).mpr isOwn) inside⟩
  · rintro ⟨buy, sell, buyPresent, sellPresent, between, better⟩
    exact ⟨buy, sell,
      (same buy between.buyInstrument.symm).mpr buyPresent,
      (same sell between.sellInstrument.symm).mpr sellPresent, between,
      fun other isPresent inside =>
        better other ((same other inside).mp isPresent) inside⟩

/-- What holds once some instruments have been matched. -/
def MatchedSofar (market : Market) (pending : PendingOrders)
    (done : List (String × List Order)) (context : BatchContext) : Prop :=
  ∃ made,
    Logged market.heap (PresentIn market pending) made
        context.market.heap ∧
      (NoTradeThrough market.heap (PresentIn market pending) made ↔
        ∀ collected ∈ done, BatchWithin market collected)

/-- The trades of one more instrument. -/
theorem MatchedSofar.next (draw : String → ℚ)
    {done later : List (String × List Order)}
    {collected : String × List Order} {context reached : BatchContext}
    (ready : BatchReady market pending)
    (limits : ∀ order ∈ ordersOf pending.entries, order.IsLimitOrder)
    (split : pending.entries = done ++ collected :: later)
    (still : StillToMatchOf market (collected :: later) context)
    (sofar : MatchedSofar market pending done context)
    (evaluated :
      BatchMatchingEngine.matchInstrument draw collected context =
        .ok ⟨⟩ reached) :
    MatchedSofar market pending (done ++ [collected]) reached := by
  have sameBook := (still.found collected List.mem_cons_self).book
  have withinAll : (∀ other ∈ done ++ [collected],
        BatchWithin market other) ↔
      (∀ other ∈ done, BatchWithin market other) ∧
        BatchWithin market collected := by
    simp only [List.forall_mem_append, List.forall_mem_singleton]
  rcases sofar with ⟨before, logged, none⟩
  cases found : context.market.orderBooks.get? collected.1 with
  | none =>
      rw [matchInstrument_unlisted draw found] at evaluated
      rcases EStateM.Result.ok.inj evaluated with ⟨_, rfl⟩
      refine ⟨before, logged, none.trans ?_⟩
      rw [withinAll]
      refine (and_iff_left ?_).symm
      intro book bookFound
      rw [← sameBook, found] at bookFound
      cases bookFound
  | some book =>
      have turn := still.inTurn ready split found
      have orderLimits : ∀ order ∈ collected.2, order.IsLimitOrder := by
        intro order inOrders
        apply limits order
        rw [split, ordersOf, List.flatMap_append, List.flatMap_cons]
        exact List.mem_append_right _ (List.mem_append_left _ inOrders)
      have matched := (matchInstrument_atBest draw ⟨found, rfl⟩
        (turn.collectedFor orderLimits) turn.invariant
        turn.named).elim_ok evaluated
      rcases matched with ⟨made, ownLogged, ownNone⟩
      rw [sameBook] at found
      have same : ∀ order, order.instrumentId = collected.1 →
          (PresentIn market pending order ↔
            Present ⟨context.market.heap, book⟩ collected.2 order) :=
        fun order => present_iff ready split found
      have inside : ∀ order,
          Present ⟨context.market.heap, book⟩ collected.2 order →
            order.instrumentId = collected.1 := by
        rintro order (resting | inOrders)
        · exact (turn.invariant.shape.instrument_of_mem resting).trans
            turn.named
        · exact turn.instrument order inOrders
      refine ⟨before ++ made, logged.trans (ownLogged.mono ?_), ?_⟩
      · exact fun order isOwn => (same order (inside order isOwn)).mpr
          isOwn
      · rw [withinAll, NoTradeThrough, atEach_append]
        apply and_congr none
        have ownWithin : BatchWithin market collected ↔
            CollectedWithin book.resting collected.2 := by
          rw [BatchWithin, found]
          exact ⟨fun all => all book rfl,
            fun within _ equal => Option.some.inj equal ▸ within⟩
        rw [ownWithin]
        refine (atEach_congr ?_).trans ownNone
        intro earlier trade member
        rcases ownLogged.between trade member with
          ⟨buy, _, buyOwn, _, between⟩
        exact atBest_iff logged
          (between.buyInstrument.trans (inside buy buyOwn)) same

/--
A batch of limit orders never passes over a better order, resting or
collected, if and only if no instrument of the batch reaches beyond its
book.
-/
theorem runBatch_noTradeThrough_iff (draw : String → ℚ)
    (ready : BatchReady market pending)
    (limits : ∀ order ∈ ordersOf pending.entries, order.IsLimitOrder) :
    Ends (BatchMatchingEngine.runBatch draw pending)
      (BatchContext.start market)
      (fun _ reached => ∃ made,
        Logged market.heap (PresentIn market pending) made
            reached.market.heap ∧
          (NoTradeThrough market.heap (PresentIn market pending) made ↔
            ∀ collected ∈ pending.entries,
              BatchWithin market collected))
      (fun _ _ => False) := by
  have matching := matchBatchOrders_ends draw ready
    (MatchedSofar market pending)
    ⟨[], Logged.refl _ _, iff_of_true atEach_nil fun _ member => by
      cases member⟩
    fun done collected later context reached split still sofar evaluated
      _ => sofar.next draw ready limits split still evaluated
  rw [BatchMatchingEngine.runBatch]
  apply matching.bind
  rintro _ matched ⟨_, all⟩
  apply (finalizeResults_market pending matched).bind
  intro _ finished equal
  rw [ends_get_bind, ends_pure, equal]
  exact all

end Whole

/-! ## A batch beside a resting offer -/

namespace Sample

/-- The order which is left in the book by an auction. -/
def offer : Order :=
  { sellTen with orderId := "OFFER" }

/-- A sell order above the offer which meets the buy order. -/
def sellAbove : Order :=
  { sellTen with
    orderId := "ABOVE"
    price := some (11 / 2)
    price_positive := buyLower.price_positive
    price_pennies := buyLower.price_pennies }

/-- The calls which leave an offer and collect two more orders. -/
def besideOfferCalls (collected : Order) : List VenueCall :=
  [ .checkPhaseTransitions (PhaseState.default .preOpen) fun _ => 0,
    .listInstrument { symbol := "CALL" },
    .submitOrder offer,
    .executeOpeningAuction fun _ => 0,
    .submitOrder buyFour,
    .submitOrder collected ]

/--
The venue in which the order has been collected beside an offer that rests
in the book.
-/
def besideOffer (collected : Order) : ExchangeVenue :=
  replay VenueCall.execute closedVenue (besideOfferCalls collected)

end Sample

/-- A sell order at the price of the offer does not pass it over. -/
theorem runBatch_noTradeThrough_sameLimit :
    Ends
      (BatchMatchingEngine.runBatch (fun _ => 0)
        (Sample.besideOffer Sample.sellTen).pendingOrders)
      (BatchContext.start (Sample.besideOffer Sample.sellTen).market)
      (fun _ reached => ∃ made,
        Logged (Sample.besideOffer Sample.sellTen).market.heap
            (PresentIn (Sample.besideOffer Sample.sellTen).market
              (Sample.besideOffer Sample.sellTen).pendingOrders)
            made reached.market.heap ∧
          NoTradeThrough (Sample.besideOffer Sample.sellTen).market.heap
            (PresentIn (Sample.besideOffer Sample.sellTen).market
              (Sample.besideOffer Sample.sellTen).pendingOrders)
            made)
      (fun _ _ => False) := by
  have sound : VenueSound (Sample.besideOffer Sample.sellTen) :=
    VenueSound.of_run (VenueSound.new _ _) (run_replay (by decide +kernel))
      (by decide +kernel)
  have ends := runBatch_noTradeThrough_iff (fun _ => 0)
    (sound.ready (by decide +kernel)) (by decide +kernel)
  refine ends.mono ?_ fun _ _ raised => raised
  rintro results reached ⟨made, logged, none⟩
  exact ⟨made, logged, none.mpr (by decide +kernel)⟩

/--
The buy order at 6.00 is paired with the sell order at 5.50, past the offer
at 5.00 which rests in the book.
-/
theorem runBatch_tradesThrough :
    ¬ ∀ (draw : String → ℚ) (market : Market) (pending : PendingOrders),
      BatchReady market pending →
      (∀ order ∈ ordersOf pending.entries, order.IsLimitOrder) →
      ∀ results reached,
        BatchMatchingEngine.runBatch draw pending
            (BatchContext.start market) = .ok results reached →
        ∀ made,
          reached.market.heap.trades = market.heap.trades ++ made →
            NoTradeThrough market.heap (PresentIn market pending) made := by
  intro none
  let venue := Sample.besideOffer Sample.sellAbove
  have sound : VenueSound venue :=
    VenueSound.of_run (VenueSound.new _ _) (run_replay (by decide +kernel))
      (by decide +kernel)
  have ready : BatchReady venue.market venue.pendingOrders :=
    sound.ready (by decide +kernel)
  rcases (runBatch_sound (fun _ => 0) sound.batch
    ready.inside).exists_ok with ⟨results, reached, evaluated, _⟩
  have final :
      (finalState
        (BatchMatchingEngine.runBatch (fun _ => 0) venue.pendingOrders
          { market := venue.market, results := ∅ })).market.heap.trades.map
        Trade.sellerOrderId = ["ABOVE"] := by
    decide +kernel
  rw [evaluated, finalState_ok] at final
  rcases List.map_eq_singleton_iff.mp final with ⟨trade, made, seller⟩
  have before : venue.market.heap.trades = [] := by
    decide +kernel
  have atBest := none (fun _ => 0) venue.market venue.pendingOrders ready
    (by decide +kernel) results reached evaluated [trade]
    (by rw [made, before]; rfl) [] trade [] rfl
  rcases atBest with ⟨buy, sell, _, sellPresent, between, better⟩
  have offerRests : venue.market.Rests Sample.offer :=
    ⟨"CALL", _, rfl, by decide +kernel⟩
  have taken : ∀ order, PresentIn venue.market venue.pendingOrders order →
      order ∈ venue.market.heap.orders := by
    rintro order (rests | inBatch)
    · exact sound.shape.market.registered order rests
    · exact (ready.waiting order inBatch).taken
  obtain rfl : sell = Sample.sellAbove :=
    sound.shape.market.eq_of_orderId_eq (taken sell sellPresent)
      (by decide +kernel) (between.sellerOrder.symm.trans seller)
  have inside : Sample.offer.instrumentId = trade.instrumentId :=
    between.sellInstrument.symm
  have passed := (better Sample.offer (Or.inl offerRests) inside).1 rfl
    (by decide +kernel)
  have left : leftAfter venue.market.heap [] Sample.offer = 10 := by
    decide +kernel
  rw [left] at passed
  exact absurd passed (by decide)

end InternTradingGame
