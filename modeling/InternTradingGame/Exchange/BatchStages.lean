import InternTradingGame.Exchange.MarketOrders

/-!
# The stages of a batch

After the pairing loop a batch adds three groups of takers to the book: the
limit buy orders which are left, the market buy orders, and the sell orders
which are left, market orders first.  The last stage meets bids which have
joined the book in the first one; at one price they stand behind those which
rested before.
-/

namespace InternTradingGame

open Effects Clearing

/-! ## The rank of a bid -/

/-- A queue has its best prices in front. -/
theorem BookShape.best_first {state : BookState}
    (shape : BookShape state.book) (side : OrderSide) :
    (state.book.restingOn side).Pairwise fun first second =>
      ¬ side.Better second.limit first.limit := by
  have limits : ∀ level ∈ state.book.levels side,
      ∀ order ∈ level.orders, order.limit = level.price :=
    fun _ member _ inLevel => limit_of_mem shape member inLevel
  rw [OrderBook.restingOn, List.pairwise_flatMap]
  constructor
  · intro level member
    apply List.pairwise_of_forall_mem_list
    intro first firstMember second secondMember
    rw [limits level member first firstMember,
      limits level member second secondMember]
    exact fun better => better.ne rfl
  · apply (shape.side side).sorted.imp_of_mem
    intro near far nearMember farMember better first firstMember second
      secondMember
    rw [limits near nearMember first firstMember,
      limits far farMember second secondMember]
    exact better.asymm

/-- A sell order meets the best bid first, and the seniors at one price. -/
def standing (seniors : List Order) (order : Order) : ℚ ×ₗ Bool :=
  toLex (-order.limit, decide (order ∉ seniors))

section Standing

variable {seniors : List Order} {first second taker maker : Order}

theorem standing_le_iff :
    standing seniors first ≤ standing seniors second ↔
      second.limit < first.limit ∨
        second.limit = first.limit ∧
          (second ∈ seniors → first ∈ seniors) := by
  rw [standing, standing, Prod.Lex.toLex_le_toLex]
  refine or_congr neg_lt_neg_iff
    (and_congr (neg_inj.trans eq_comm) ?_)
  by_cases firstSenior : first ∈ seniors <;>
    by_cases secondSenior : second ∈ seniors <;>
      simp [firstSenior, secondSenior]

/-- A taker which is not senior is told apart by its limit alone. -/
theorem standing_lt_iff (junior : taker ∉ seniors) :
    standing seniors taker < standing seniors maker ↔
      maker.limit < taker.limit := by
  rw [← not_le, standing_le_iff]
  constructor
  · intro neither
    by_contra within
    apply neither
    rcases (not_lt.mp within).lt_or_eq with below | equal
    · exact Or.inl below
    · exact Or.inr ⟨equal, fun senior => absurd senior junior⟩
  · rintro below (above | ⟨equal, _⟩)
    · exact lt_asymm below above
    · exact below.ne equal.symm

end Standing

/-! ## The three stages -/

namespace BatchQueues

/-- The limit buy orders which are left come first. -/
def buying (queues : BatchQueues) (paired : BookState) : Stage ℚ where
  side := .buy
  rank := Order.limit
  takers := unfilledIn paired.heap queues.limitBuys
  start := paired

/-- The market buy orders take whatever there is. -/
def marketBuying (queues : BatchQueues) (bought : BookState) :
    Stage Unit where
  side := .buy
  rank := fun _ => ()
  takers := queues.marketBuys
  start := bought

/-- The sell orders which are left come last. -/
def selling (queues : BatchQueues) (seniors : List Order) (paired : Heap)
    (served : BookState) : Stage (ℚ ×ₗ Bool) where
  side := .sell
  rank := standing seniors
  takers := queues.marketSells ++ unfilledIn paired queues.limitSells
  start := served

end BatchQueues

section Stages

variable {instrumentId : String}
  {start paired bought served reached : BookState}
  {queues : BatchQueues} {order other : Order}

/-- An order is as it was and can still be added. -/
structure Fresh (before : BookState) (order : Order) (now : BookState) :
    Prop where
  addable : Addable order now
  remaining : now.heap.remaining order = before.heap.remaining order

/-- A stage leaves those alone which do not take part in it. -/
theorem Stage.Reached.keeps_fresh {P : Type*} [LinearOrder P] {stage : Stage P}
    {done later : List Order} {state : BookState} (sides : stage.Sides)
    (reached : stage.Reached done later state)
    (split : stage.takers = done ++ later)
    (fresh : Fresh start order stage.start)
    (apart : ∀ taker ∈ stage.takers, order.orderId ≠ taker.orderId) :
    Fresh start order state where
  addable := by
    apply reached.addable sides fresh.addable
    intro taker member
    apply apart taker
    rw [split]
    exact List.mem_append_left _ member
  remaining := (reached.untouched sides fresh.addable apart).trans
    fresh.remaining

namespace QueueFacts

/-- Buy orders and sell orders have different ids. -/
theorem apart (facts : QueueFacts instrumentId start queues)
    (buy : order ∈ queues.buys) (sell : other ∈ queues.sells) :
    order.orderId ≠ other.orderId :=
  orderId_apart facts.distinct buy sell

theorem buysDistinct (facts : QueueFacts instrumentId start queues) :
    (queues.buys.map Order.orderId).Nodup :=
  facts.distinct.sublist ((List.sublist_append_left _ _).map _)

theorem sellsDistinct (facts : QueueFacts instrumentId start queues) :
    (queues.sells.map Order.orderId).Nodup :=
  facts.distinct.sublist ((List.sublist_append_right _ _).map _)

end QueueFacts

namespace PairedLimits

theorem resting (facts : QueueFacts instrumentId start queues)
    (state : PairedLimits start queues paired) :
    ∀ order ∈ start.book.resting,
      paired.heap.remaining order = start.heap.remaining order := by
  intro order member
  apply state.filled.unchanged
  intro other inBatch
  exact facts.invariant.shape.not_mem_resting
    (facts.addable other (QueueFacts.mem_limits inBatch)).absent order
    member

theorem invariant (facts : QueueFacts instrumentId start queues)
    (state : PairedLimits start queues paired) : BookInv paired := by
  have agree := state.resting facts
  exact (facts.invariant.congr_heap agree).congr_book state.same
    state.levels

/-- What can be added before the pairing can be added after it. -/
theorem addable (state : PairedLimits start queues paired)
    (addable : Addable order start) : Addable order paired where
  instrument := addable.instrument.trans state.same.instrument.symm
  absent := by
    rw [state.same.ids]
    exact addable.absent

theorem fillable (facts : QueueFacts instrumentId start queues)
    (state : PairedLimits start queues paired)
    (member : order ∈ queues.limitBuys ++ queues.limitSells) :
    order.Fillable paired.heap :=
  state.filled.fillable member
    (facts.fillable (QueueFacts.mem_limits member))
    (state.whole order member)

/-- Market orders take no part in the pairing. -/
theorem fresh_market (facts : QueueFacts instrumentId start queues)
    (state : PairedLimits start queues paired)
    (member : order ∈ queues.marketBuys ++ queues.marketSells) :
    Fresh start order paired := by
  have inBatch : order ∈ queues.buys ++ queues.sells := by
    rcases List.mem_append.mp member with buy | sell
    · exact List.mem_append_left _ (List.mem_append_right _ buy)
    · exact List.mem_append_right _ (List.mem_append_left _ sell)
  refine ⟨state.addable (facts.addable order inBatch), ?_⟩
  apply state.filled.unchanged
  intro other limit
  apply orderId_ne facts.distinct inBatch (QueueFacts.mem_limits limit)
  rintro rfl
  have priced := (facts.limits order limit).price_eq
  rw [facts.noPrice order member] at priced
  cases priced

/-- The limit buy orders which are left can be added. -/
theorem buying_sides (facts : QueueFacts instrumentId start queues)
    (state : PairedLimits start queues paired) :
    (queues.buying paired).Sides := by
  have inLimits : ∀ taker ∈ unfilledIn paired.heap queues.limitBuys,
      taker ∈ queues.limitBuys := fun taker member =>
    (mem_unfilledIn.mp member).1
  have isBuy : ∀ taker ∈ queues.limitBuys, taker.side = .buy :=
    fun taker member => facts.isBuy taker (List.mem_append_left _ member)
  constructor
  · exact state.invariant facts
  · refine facts.buysDistinct.sublist (List.Sublist.map _ ?_)
    exact List.filter_sublist.trans (List.sublist_append_left _ _)
  · exact fun taker member => isBuy taker (inLimits taker member)
  · intro taker member
    exact state.addable (facts.addable taker (List.mem_append_left _
      (List.mem_append_left _ (inLimits taker member))))
  · exact fun taker member => state.fillable facts
      (List.mem_append_left _ (inLimits taker member))
  · intro taker member maker _
    have limit := facts.limits taker
      (List.mem_append_left _ (inLimits taker member))
    rw [OrderSide.refuses_limit_iff limit,
      isBuy taker (inLimits taker member)]
    exact Iff.rfl
  · exact facts.bestBuys.sublist List.filter_sublist
  · refine ((state.invariant facts).shape.best_first .sell).imp ?_
    exact fun better => not_lt.mp better

theorem fillable_all (facts : QueueFacts instrumentId start queues)
    (state : PairedLimits start queues paired)
    (member : order ∈ queues.buys ++ queues.sells) :
    order.Fillable paired.heap := by
  have market : order ∈ queues.marketBuys ++ queues.marketSells →
      order.Fillable paired.heap := fun isMarket =>
    (facts.fillable member).congr
      (state.fresh_market facts isMarket).remaining
  rcases List.mem_append.mp member with buy | sell
  · rcases List.mem_append.mp buy with limit | isMarket
    · exact state.fillable facts (List.mem_append_left _ limit)
    · exact market (List.mem_append_left _ isMarket)
  · rcases List.mem_append.mp sell with isMarket | limit
    · exact market (List.mem_append_right _ isMarket)
    · exact state.fillable facts (List.mem_append_right _ limit)

end PairedLimits

/-- A market order refuses no price. -/
theorem Order.not_refuses (noPrice : order.price = none) (price : ℚ) :
    ¬ order.Refuses price := by
  rw [order.refuses_iff, noPrice]
  rintro ⟨_, impossible, _⟩
  cases impossible

theorem Order.limit_of_noPrice (noPrice : order.price = none) :
    order.limit = 0 := by
  rw [Order.limit, noPrice]
  rfl

theorem BookShape.limit_positive {state : BookState}
    (shape : BookShape state.book) {side : OrderSide}
    (member : order ∈ state.book.restingOn side) : 0 < order.limit := by
  rcases OrderBook.mem_restingOn_iff.mp member with
    ⟨level, levelMember, inLevel⟩
  rw [limit_of_mem shape levelMember inLevel]
  exact order.price_positive _
    ((shape.side side).ownPrice level levelMember order inLevel)

theorem QueuedBehind.eq_rested {rested queue : List Order}
    (queued : QueuedBehind rested [] queue) : queue = rested := by
  have own := queued.own
  rw [List.append_nil] at own
  exact (queued.kept.eq_of_length own.length_eq.symm).symm

/-- The buying stages have been gone through. -/
structure BuysServed (queues : BatchQueues)
    (paired bought served : BookState) : Prop where
  buying : (queues.buying paired).Reached
    (unfilledIn paired.heap queues.limitBuys) [] bought
  marketBuying : (queues.marketBuying bought).Reached
    queues.marketBuys [] served

/-- The market buy orders have waited while the limit buy orders came. -/
theorem PairedLimits.fresh_marketBuy
    (facts : QueueFacts instrumentId start queues)
    (state : PairedLimits start queues paired)
    (first : (queues.buying paired).Reached
      (unfilledIn paired.heap queues.limitBuys) [] bought)
    (member : order ∈ queues.marketBuys) : Fresh paired order bought := by
  have inBatch : order ∈ queues.buys ++ queues.sells :=
    List.mem_append_left _ (List.mem_append_right _ member)
  apply first.keeps_fresh (state.buying_sides facts)
    (List.append_nil _).symm
  · exact ⟨state.addable (facts.addable order inBatch), rfl⟩
  · intro taker taken
    exact (orderId_apart facts.buysDistinct
      (mem_unfilledIn.mp taken).1 member).symm

/-- The market buy orders can be added after the limit buy orders. -/
theorem marketBuying_sides (facts : QueueFacts instrumentId start queues)
    (state : PairedLimits start queues paired)
    (first : (queues.buying paired).Reached
      (unfilledIn paired.heap queues.limitBuys) [] bought) :
    (queues.marketBuying bought).Sides := by
  have inBatch : ∀ order ∈ queues.marketBuys,
      order ∈ queues.buys ++ queues.sells := fun order member =>
    List.mem_append_left _ (List.mem_append_right _ member)
  have fresh : ∀ order ∈ queues.marketBuys, Fresh paired order bought :=
    fun _ member => state.fresh_marketBuy facts first member
  constructor
  · exact first.invariant
  · exact facts.buysDistinct.sublist
      ((List.sublist_append_right _ _).map _)
  · exact fun order member =>
      facts.isBuy order (List.mem_append_right _ member)
  · exact fun order member => (fresh order member).addable
  · exact fun order member =>
      (state.fillable_all facts (inBatch order member)).congr
        (fresh order member).remaining
  · intro taker member maker _
    exact iff_of_false
      (Order.not_refuses
        (facts.noPrice taker (List.mem_append_left _ member)) _)
      (lt_irrefl _)
  · exact List.pairwise_of_forall fun _ _ => le_rfl
  · exact List.pairwise_of_forall fun _ _ => le_rfl

/-- The bids which the sell orders meet. -/
theorem BuysServed.bids (facts : QueueFacts instrumentId start queues)
    (state : PairedLimits start queues paired)
    (served_ : BuysServed queues paired bought served) :
    QueuedBehind (start.book.restingOn .buy)
      (leftIn bought.heap (unfilledIn paired.heap queues.limitBuys))
      (served.book.restingOn .buy) := by
  have unchanged : served.book.restingOn .buy =
      bought.book.restingOn .buy := by
    have queued := served_.marketBuying.own
    have none : leftIn served.heap queues.marketBuys = [] := by
      rw [leftIn, List.filter_eq_nil_iff]
      intro order member both
      have priced := (of_decide_eq_true both).1.price_eq
      rw [facts.noPrice order (List.mem_append_left _ member)] at priced
      cases priced
    rw [none] at queued
    exact queued.eq_rested
  rw [unchanged, ← state.same.restingOn]
  exact served_.buying.own

/-- The sell orders have waited meanwhile. -/
theorem BuysServed.fresh_sells
    (facts : QueueFacts instrumentId start queues)
    (state : PairedLimits start queues paired)
    (served_ : BuysServed queues paired bought served)
    (member : order ∈ queues.sells) : Fresh paired order served := by
  have inBatch : order ∈ queues.buys ++ queues.sells :=
    List.mem_append_right _ member
  apply served_.marketBuying.keeps_fresh
    (marketBuying_sides facts state served_.buying)
    (List.append_nil _).symm
  · apply served_.buying.keeps_fresh (state.buying_sides facts)
      (List.append_nil _).symm
    · exact ⟨state.addable (facts.addable order inBatch), rfl⟩
    · intro taker taken
      exact (facts.apart (List.mem_append_left _
        (mem_unfilledIn.mp taken).1) member).symm
  · exact fun taker taken =>
      (facts.apart (List.mem_append_right _ taken) member).symm

/-- The takers of the last stage are sell orders of the batch. -/
theorem BatchQueues.mem_sells {heap : Heap}
    (member : order ∈ queues.marketSells ++
      unfilledIn heap queues.limitSells) : order ∈ queues.sells := by
  rcases List.mem_append.mp member with market | limit
  · exact List.mem_append_left _ market
  · exact List.mem_append_right _ (mem_unfilledIn.mp limit).1

/-- No sell order has rested before. -/
theorem QueueFacts.junior (facts : QueueFacts instrumentId start queues)
    (member : order ∈ queues.buys ++ queues.sells) :
    order ∉ start.book.restingOn .buy := by
  intro resting
  exact (facts.addable order member).absent
    (facts.invariant.shape.contains_orderId
      (OrderBook.mem_resting_of_mem resting))

/-- The sell orders can be added after all buy orders. -/
theorem selling_sides (facts : QueueFacts instrumentId start queues)
    (state : PairedLimits start queues paired)
    (served_ : BuysServed queues paired bought served) :
    (queues.selling (start.book.restingOn .buy) paired.heap
      served).Sides := by
  have inSells : ∀ taker ∈ queues.marketSells ++
      unfilledIn paired.heap queues.limitSells, taker ∈ queues.sells :=
    fun _ member => BatchQueues.mem_sells member
  have fresh : ∀ order ∈ queues.sells, Fresh paired order served :=
    fun _ member => served_.fresh_sells facts state member
  have junior : ∀ order ∈ queues.sells,
      order ∉ start.book.restingOn .buy := fun order member =>
    facts.junior (List.mem_append_right _ member)
  have limits : ∀ order ∈ unfilledIn paired.heap queues.limitSells,
      order.IsLimitOrder := fun order member =>
    facts.limits order (List.mem_append_right _ (mem_unfilledIn.mp member).1)
  have zero : ∀ order ∈ queues.marketSells, order.limit = 0 :=
    fun order member => Order.limit_of_noPrice
      (facts.noPrice order (List.mem_append_right _ member))
  constructor
  · exact served_.marketBuying.invariant
  · refine facts.sellsDistinct.sublist (List.Sublist.map _ ?_)
    exact (List.Sublist.refl _).append List.filter_sublist
  · exact fun taker member => facts.isSell taker (inSells taker member)
  · exact fun taker member => (fresh taker (inSells taker member)).addable
  · exact fun taker member =>
      (state.fillable_all facts
        (List.mem_append_right _ (inSells taker member))).congr
        (fresh taker (inSells taker member)).remaining
  · intro taker member maker bid
    show _ ↔ standing _ _ < standing _ _
    rw [standing_lt_iff (junior taker (inSells taker member))]
    rcases List.mem_append.mp member with market | limit
    · rw [zero taker market]
      exact iff_of_false
        (Order.not_refuses
          (facts.noPrice taker (List.mem_append_right _ market)) _)
        (served_.marketBuying.invariant.shape.limit_positive
          bid).asymm
    · rw [OrderSide.refuses_limit_iff (limits taker limit),
        facts.isSell taker (inSells taker member)]
      exact neg_lt_neg_iff
  · have sorted : (queues.marketSells ++
        unfilledIn paired.heap queues.limitSells).Pairwise
          fun first second => first.limit ≤ second.limit := by
      refine List.pairwise_append.mpr
        ⟨?_, facts.bestSells.sublist List.filter_sublist, ?_⟩
      · apply List.pairwise_of_forall_mem_list
        intro first firstMember second secondMember
        rw [zero first firstMember, zero second secondMember]
      · intro first firstMember second secondMember
        rw [zero first firstMember]
        exact (limits second secondMember).limit_positive.le
    apply sorted.imp_of_mem
    intro first second firstMember secondMember before
    apply standing_le_iff.mpr
    rcases before.lt_or_eq with below | equal
    · exact Or.inl below
    · exact Or.inr ⟨equal, fun senior =>
        absurd senior (junior first (inSells first firstMember))⟩
  · have best := served_.marketBuying.invariant.shape.best_first .buy
    have queued := (served_.bids facts state).junior
    apply (best.and queued).imp
    rintro first second ⟨notBetter, behind⟩
    apply standing_le_iff.mpr
    rcases (not_lt.mp notBetter).lt_or_eq with below | equal
    · exact Or.inl below
    · refine Or.inr ⟨equal, fun senior => ?_⟩
      rcases behind senior with isSenior | different
      · exact isSenior
      · exact absurd equal.symm different

end Stages

/-! ## The orders of one instrument -/

/-- What the matching of one instrument has gone through. -/
structure Staged (instrumentId : String) (known : String → String → Prop)
    (start : BookState) (queues : BatchQueues) (before : BatchContext)
    (paired bought served after : BookState) (early sold : List Trade)
    (reached : BatchContext) : Prop where
  pairing : PairedLimits start queues paired
  buys : BuysServed queues paired bought served
  sells : (queues.selling (start.book.restingOn .buy) paired.heap
    served).Reached
      (queues.marketSells ++ unfilledIn paired.heap queues.limitSells) []
      after
  has : HasBook instrumentId reached after
  recorded : after.heap.trades = start.heap.trades ++ (early ++ sold)
  accounts : ∀ order : Order, after.heap.remaining order =
    served.heap.remaining order - tradedQuantity order.orderId sold
  filed : reached.Filed known
  buyFills : ∀ order ∈ queues.buys,
    reached.fillsOf instrumentId order.orderId =
      before.fillsOf instrumentId order.orderId ++
        tradesOf order.orderId early
  sellFills : ∀ order ∈ queues.sells,
    reached.fillsOf instrumentId order.orderId =
      before.fillsOf instrumentId order.orderId ++
        tradesOf order.orderId (early ++ sold)

section OneInstrument

variable {instrumentId : String} {known : String → String → Prop}
  {start : BookState} {queues : BatchQueues} {context : BatchContext}

/-- What is left of the groups is added to the book. -/
theorem addOrdersToBook_left (heap : Heap) :
    BatchMatchingEngine.addOrdersToBook instrumentId
        ((queues.left heap).1 ++ (queues.left heap).2) =
      (do
        BatchMatchingEngine.addOrdersToBook instrumentId
          (unfilledIn heap queues.limitBuys)
        BatchMatchingEngine.addOrdersToBook instrumentId
          queues.marketBuys
        BatchMatchingEngine.addOrdersToBook instrumentId
          (queues.marketSells ++ unfilledIn heap queues.limitSells)) := by
  show BatchMatchingEngine.addOrdersToBook instrumentId
    ((unfilledIn heap queues.limitBuys ++ queues.marketBuys) ++
      (queues.marketSells ++ unfilledIn heap queues.limitSells)) = _
  rw [List.append_assoc, addOrdersToBook_append, addOrdersToBook_append]

variable {paired bought served after : BookState} {order : Order}
  {afterPairs afterBuys afterMarket reached : BatchContext}
  {pairsMade buysMade marketMade soldMade : List Trade}

/-- The orders of the batch have other ids than those which rest. -/
theorem PairedLimits.apart_resting
    (facts : QueueFacts instrumentId start queues)
    (state : PairedLimits start queues paired)
    (member : order ∈ queues.buys ++ queues.sells) {maker : Order}
    (resting : maker ∈ paired.book.resting) :
    order.orderId ≠ maker.orderId := by
  have shape := (state.invariant facts).shape
  exact (shape.not_mem_resting
    (state.addable (facts.addable order member)).absent maker resting).symm

/-- The orders of the batch have other ids than the bids they meet. -/
theorem BuysServed.apart_bids
    (facts : QueueFacts instrumentId start queues)
    (state : PairedLimits start queues paired)
    (served_ : BuysServed queues paired bought served)
    (member : order ∈ queues.sells) :
    ∀ maker ∈ (queues.selling (start.book.restingOn .buy) paired.heap
        served).makers, order.orderId ≠ maker.orderId := by
  intro bid isMaker
  rcases List.mem_append.mp
    ((served_.bids facts state).own.mem_iff.mp isMaker) with
    before | joined
  · rw [← state.same.restingOn] at before
    exact state.apart_resting facts (List.mem_append_right _ member)
      (OrderBook.mem_resting_of_mem before)
  · have limit := (mem_unfilledIn.mp (List.mem_filter.mp joined).1).1
    exact (facts.apart (List.mem_append_left _ limit) member).symm

/-- What the orders of the batch are told until all buy orders are added. -/
theorem PairedLimits.early_fills
    (facts : QueueFacts instrumentId start queues)
    (state : PairedLimits start queues paired)
    (pairs : Told instrumentId known (queues.buys ++ queues.sells) context
      pairsMade afterPairs)
    (buys : TakersTold (queues.buying paired) instrumentId known afterPairs
      (unfilledIn paired.heap queues.limitBuys) [] afterBuys bought
      buysMade)
    (market : TakersTold (queues.marketBuying bought) instrumentId known
      afterBuys queues.marketBuys [] afterMarket served marketMade)
    (member : order ∈ queues.buys ++ queues.sells) :
    afterMarket.fillsOf instrumentId order.orderId =
      context.fillsOf instrumentId order.orderId ++
        tradesOf order.orderId (pairsMade ++ (buysMade ++ marketMade)) := by
  have asks : ∀ maker ∈ (queues.buying paired).makers,
      order.orderId ≠ maker.orderId := fun maker isMaker =>
    state.apart_resting facts member (OrderBook.mem_resting_of_mem isMaker)
  have later : ∀ maker ∈ (queues.marketBuying bought).makers,
      order.orderId ≠ maker.orderId := by
    intro maker isMaker
    have queue := buys.reached.meeting.queue
    rw [Stage.makers] at isMaker
    have inQueue : maker ∈
        bought.book.restingOn (queues.buying paired).side.opposite :=
      isMaker
    rw [queue] at inQueue
    exact asks maker (mem_unfilledIn.mp inQueue).1
  rw [market.fills later, buys.fills asks, pairs.grown order member,
    tradesOf_append, tradesOf_append, List.append_assoc,
    List.append_assoc]

/-- Orders which were told of all trades have gone through the stages. -/
theorem PairedLimits.staged
    (facts : QueueFacts instrumentId start queues)
    (state : PairedLimits start queues paired)
    (has : HasBook instrumentId context start)
    (hasPaired : HasBook instrumentId afterPairs paired)
    (recorded : afterPairs.market.heap.trades =
      context.market.heap.trades ++ pairsMade)
    (pairs : Told instrumentId known (queues.buys ++ queues.sells) context
      pairsMade afterPairs)
    (buys : TakersTold (queues.buying paired) instrumentId known afterPairs
      (unfilledIn paired.heap queues.limitBuys) [] afterBuys bought
      buysMade)
    (market : TakersTold (queues.marketBuying bought) instrumentId known
      afterBuys queues.marketBuys [] afterMarket served marketMade)
    (sold : TakersTold (queues.selling (start.book.restingOn .buy)
        paired.heap served) instrumentId known afterMarket
      (queues.marketSells ++ unfilledIn paired.heap queues.limitSells) []
      reached after soldMade) :
    Staged instrumentId known start queues context paired bought served
      after (pairsMade ++ (buysMade ++ marketMade)) soldMade reached := by
  have served_ : BuysServed queues paired bought served :=
    ⟨buys.reached, market.reached⟩
  refine ⟨state, served_, sold.reached, sold.has, ?_, ?_, sold.told.filed,
    ?_, ?_⟩
  · have first : paired.heap.trades = start.heap.trades ++ pairsMade := by
      rw [← hasPaired.heap, recorded, has.heap]
    have second : bought.heap.trades = paired.heap.trades ++ buysMade :=
      buys.recorded
    have third : served.heap.trades = bought.heap.trades ++ marketMade :=
      market.recorded
    have fourth : after.heap.trades = served.heap.trades ++ soldMade :=
      sold.recorded
    rw [fourth, third, second, first]
    simp only [List.append_assoc]
  · exact fun order => sold.accounts order.orderId
  · intro order member
    rw [← state.early_fills facts pairs buys market
      (List.mem_append_left _ member)]
    apply sold.told.others
    intro inTakers
    rcases List.mem_map.mp inTakers with ⟨taker, taken, equal⟩
    exact facts.apart member (BatchQueues.mem_sells taken) equal.symm
  · intro order member
    rw [sold.fills (served_.apart_bids facts state member),
      state.early_fills facts pairs buys market
        (List.mem_append_right _ member),
      List.append_assoc, ← tradesOf_append]

/-- The groups are paired, and what is left is added to the book. -/
theorem pairThenAdd_staged (facts : QueueFacts instrumentId start queues)
    (has : HasBook instrumentId context start)
    (filed : context.Filed known)
    (places : ∀ order ∈ queues.buys ++ queues.sells,
      known instrumentId order.orderId) :
    Ends
      (do
        let left ←
          BatchMatchingEngine.pairOrders
            (queues.buys.length + queues.sells.length + 1) queues.buys
            queues.sells
        BatchMatchingEngine.addOrdersToBook instrumentId
          (left.1 ++ left.2))
      context
      (fun _ reached => ∃ paired bought served after early sold,
        Staged instrumentId known start queues context paired bought
          served after early sold reached)
      (fun _ _ => False) := by
  have instrument : ∀ order ∈ queues.buys ++ queues.sells,
      order.instrumentId = instrumentId := fun order member =>
    (facts.addable order member).instrument.trans facts.named
  have pairs := (pairOrders_queues facts has
    (Nat.lt_succ_self _)).and (pairOrders_told facts.distinct facts.isBuy
      facts.isSell instrument filed places (Nat.lt_succ_self _))
  refine Ends.bind (pairs.mono (fun _ _ both => both)
    fun _ _ impossible => impossible.1) ?_
  rintro left afterPairs
    ⟨⟨paired, hasPaired, state, rfl⟩, pairsMade, recorded, pairsTold⟩
  rw [addOrdersToBook_left]
  refine (addOrdersToBook_told (state.buying_sides facts) hasPaired
    pairsTold.filed (fun taker member => places taker
      (List.mem_append_left _
        (List.mem_append_left _ (mem_unfilledIn.mp member).1)))).bind ?_
  rintro _ afterBuys ⟨bought, buysMade, buysTold⟩
  refine (addOrdersToBook_told
    (marketBuying_sides facts state buysTold.reached) buysTold.has
    buysTold.told.filed (fun taker member => places taker
      (List.mem_append_left _ (List.mem_append_right _ member)))).bind ?_
  rintro _ afterMarket ⟨served, marketMade, marketTold⟩
  refine (addOrdersToBook_told
    (selling_sides facts state ⟨buysTold.reached, marketTold.reached⟩)
    marketTold.has marketTold.told.filed (fun taker member => places taker
      (List.mem_append_right _ (BatchQueues.mem_sells member)))).mono
    ?_ fun _ _ impossible => impossible
  rintro _ reached ⟨after, soldMade, soldTold⟩
  exact ⟨paired, bought, served, after, _, soldMade,
    state.staged facts has hasPaired recorded pairsTold buysTold marketTold
      soldTold⟩

/-- The orders of one instrument are matched in stages. -/
theorem matchInstrument_staged {orders : List Order} (draw : String → ℚ)
    (turn : InTurn instrumentId orders start)
    (has : HasBook instrumentId context start)
    (filed : context.Filed known)
    (places : ∀ order ∈ orders, known instrumentId order.orderId) :
    Ends
      (BatchMatchingEngine.matchInstrument draw (instrumentId, orders))
      context
      (fun _ reached => ∃ paired bought served after early sold,
        Staged instrumentId known start (BatchQueues.ofOrders draw orders)
          context paired bought served after early sold reached)
      (fun _ _ => False) := by
  have listed : context.market.orderBooks.Contains instrumentId :=
    OrderedDict.contains_of_get? has.found
  have perm := BatchQueues.ofOrders_perm draw orders
  rw [matchInstrument_eq, ends_get_bind, if_pos listed, pairCollected]
  simp only [← BatchQueues.ofOrders_buys, ← BatchQueues.ofOrders_sells]
  exact pairThenAdd_staged (turn.queueFacts draw) has filed
    fun order member => places order (perm.mem_iff.mpr member)

end OneInstrument

end InternTradingGame
