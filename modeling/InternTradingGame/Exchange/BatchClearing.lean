import InternTradingGame.Exchange.Pairing
import InternTradingGame.OrderBook.Taking

/-!
# The three clearings of a batch

A batch clears three times: its buy orders against its sell orders, what is
left of the buy orders against the sell orders which rested before, and what
is left of the sell orders against the buy orders which rested before.  The
last two cannot meet each other any more.  Each clearing is fair and
exhausted, and in the end the queues of the book are what nobody has filled.
-/

namespace InternTradingGame

open Effects Clearing

/-! ## Adding what is left to a book -/

section Adding

variable {side : OrderSide}
  {takers makers strangers rested done later : List Order} {base : Heap}
  {instrumentId : String} {context : BatchContext} {state : BookState}

/-- The batch has the book of an instrument in a state. -/
structure HasBook (instrumentId : String) (context : BatchContext)
    (state : BookState) : Prop where
  found : context.market.orderBooks.get? instrumentId = some state.book
  heap : context.market.heap = state.heap

/-- What holds while takers are added to a book. -/
def AddingTakers (side : OrderSide)
    (takers makers strangers rested : List Order) (base : Heap)
    (instrumentId : String) (kept : Heap → Prop) (later : List Order)
    (context : BatchContext) : Prop :=
  ∃ done state, unfilledIn base takers = done ++ later ∧
    HasBook instrumentId context state ∧
    TakenInTurn side takers makers strangers rested done later base
      instrumentId state ∧
    kept state.heap

/-- An order which the book accepts is added to it. -/
theorem addOrderToBook_eq {order : Order} {trades : List Trade}
    {reached : BookState} (has : HasBook instrumentId context state)
    (evaluates : OrderBook.addOrder order state = .ok trades reached) :
    BatchMatchingEngine.addOrderToBook instrumentId order context =
      .ok ⟨⟩
        (BatchContext.extendFills
          { context with
            market := context.market.withBook instrumentId reached }
          instrumentId order trades) := by
  have onBook : Market.onBook instrumentId (OrderBook.addOrder order)
      context.market =
        .ok trades (context.market.withBook instrumentId reached) := by
    apply Market.onBook_ok has.found
    rw [has.heap]
    exact evaluates
  have inBatch : BatchContext.onMarket
      (Market.onBook instrumentId (OrderBook.addOrder order)) context =
        .ok trades
          { context with
            market := context.market.withBook instrumentId reached } :=
    zoom_ok onBook
  rw [BatchMatchingEngine.addOrderToBook, bind_apply, inBatch]
  rfl

theorem addOrderToBook_ok {order : Order} {trades : List Trade}
    {reached : BookState} (has : HasBook instrumentId context state)
    (evaluates : OrderBook.addOrder order state = .ok trades reached) :
    Ends (BatchMatchingEngine.addOrderToBook instrumentId order) context
      (fun _ after => HasBook instrumentId after reached)
      (fun _ _ => False) :=
  Ends.of_ok (addOrderToBook_eq has evaluates)
    ⟨Market.withBook_get?_self .., rfl⟩

theorem addOrdersToBook_append (first second : List Order) :
    BatchMatchingEngine.addOrdersToBook instrumentId (first ++ second) =
      (do
        BatchMatchingEngine.addOrdersToBook instrumentId first
        BatchMatchingEngine.addOrdersToBook instrumentId second) :=
  List.forM_append

/--
All takers which are left are added, one after another.  What their trades
keep still holds.
-/
theorem addTakers
    (sides : TakingSides side takers makers strangers base)
    (apart : ∀ order ∈ rested,
      order.orderId ∉ (takers ++ makers).map Order.orderId)
    (has : HasBook instrumentId context state)
    (taken : TakenInTurn side takers makers strangers rested []
      (unfilledIn base takers) base instrumentId state)
    (kept : Heap → Prop) (holds : kept state.heap)
    (keeps : ∀ order fill reached,
      TakerTrade side takers makers strangers base order fill reached →
        kept reached.heap → kept (reached.afterFill order fill).heap) :
    Ends
      (BatchMatchingEngine.addOrdersToBook instrumentId
        (unfilledIn base takers)) context
      (fun _ reached => ∃ after, HasBook instrumentId reached after ∧
        TakenInTurn side takers makers strangers rested
          (unfilledIn base takers) [] base instrumentId after ∧
        kept after.heap)
      (fun _ _ => False) := by
  have loop : Ends
      (BatchMatchingEngine.addOrdersToBook instrumentId
        (unfilledIn base takers)) context
      (fun _ => AddingTakers side takers makers strangers rested base
        instrumentId kept [])
      (fun _ _ => False) := by
    refine Ends.forM
      (AddingTakers side takers makers strangers rested base
        instrumentId kept) ?_ _ ⟨[], state, rfl, has, taken, holds⟩
    rintro order later reached
      ⟨done, before, split, hasBefore, sofar, holdsBefore⟩
    rcases sofar.add sides apart split kept holdsBefore (keeps order)
      with ⟨trades, after, evaluates, further, holdsAfter⟩
    refine (addOrderToBook_ok hasBefore evaluates).mono ?_
      fun _ _ impossible => impossible
    intro _ next hasAfter
    refine ⟨done ++ [order], after, ?_, hasAfter, further, holdsAfter⟩
    rw [split, List.append_assoc]
    rfl
  refine loop.mono ?_ fun _ _ impossible => impossible
  rintro _ reached ⟨done, after, split, hasAfter, finished, holdsAfter⟩
  rw [List.append_nil] at split
  exact ⟨after, hasAfter, split ▸ finished, holdsAfter⟩

end Adding

/-! ## The three clearings of a batch -/

/-- The orders which have been collected for a book. -/
structure CollectedFor (instrumentId : String) (state : BookState)
    (orders : List Order) : Prop where
  distinct : (orders.map Order.orderId).Nodup
  limits : ∀ order ∈ orders, order.IsLimitOrder
  whole : ∀ order ∈ orders, Whole order.quantity
  instrument : ∀ order ∈ orders, order.instrumentId = instrumentId
  unfilled : ∀ order ∈ orders,
    state.heap.remaining order = order.quantity
  absent : ∀ order ∈ orders, order.orderId ∉ state.book.orderIds

/-- One clearing of two sides. -/
structure Clears (base : Heap) (price : Order → ℚ)
    (bids asks : List Order) (now : Heap) : Prop where
  filled : FilledFairly base price bids asks now
  exhausted : Exhausted price base.remaining (filledSince base now) bids
    asks

/-- What the matching of a batch has done to its book. -/
structure BatchCleared (start : BookState) (buys sells : List Order)
    (paired bought : Heap) (reached : BookState) : Prop where
  pairing : Clears start.heap Order.limit buys sells paired
  buying : Clears paired OrderSide.buy.worth buys
    (start.book.restingOn .sell) bought
  selling : Clears bought OrderSide.sell.worth sells
    (start.book.restingOn .buy) reached.heap
  buyQueue : (reached.book.restingOn .buy).Perm
    (unfilledIn reached.heap
      (start.book.restingOn .buy ++ unfilledIn paired buys))
  sellQueue : (reached.book.restingOn .sell).Perm
    (unfilledIn reached.heap
      (start.book.restingOn .sell ++ unfilledIn bought sells))
  invariant : BookInv reached

/-- Two sides of a batch and the book they meet. -/
structure BatchFacts (instrumentId : String) (start : BookState)
    (buys sells : List Order) : Prop where
  invariant : BookInv start
  named : start.book.instrumentId = instrumentId
  sides : BatchSides start.heap buys sells
  fillable : ∀ order ∈ buys ++ sells, order.Fillable start.heap
  isBuy : ∀ order ∈ buys, order.side = .buy
  isSell : ∀ order ∈ sells, order.side = .sell
  instrument : ∀ order ∈ buys ++ sells,
    order.instrumentId = instrumentId
  absent : ∀ order ∈ buys ++ sells,
    order.orderId ∉ start.book.orderIds

section Facts

variable {instrumentId : String} {start : BookState}
  {buys sells orders : List Order}

/-- The sorted sides of the collected orders. -/
theorem CollectedFor.facts (draw : String → ℚ)
    (collected : CollectedFor instrumentId start orders)
    (invariant : BookInv start)
    (named : start.book.instrumentId = instrumentId) :
    BatchFacts instrumentId start
      (BatchMatchingEngine.randomizeSamePriceOrders draw true
        (orders.filter fun order => order.side = .buy))
      (BatchMatchingEngine.randomizeSamePriceOrders draw false
        (orders.filter fun order => order.side = .sell)) := by
  have perm := sides_perm draw orders
  have onSide : ∀ (descending : Bool) (side : OrderSide),
      ∀ order ∈ BatchMatchingEngine.randomizeSamePriceOrders draw
          descending (orders.filter fun order => order.side = side),
        order.side = side := by
    intro descending side order member
    have inFilter := (randomize_perm draw descending _).mem_iff.mp member
    exact of_decide_eq_true (List.mem_filter.mp inFilter).2
  constructor
  · exact invariant
  · exact named
  · apply batchSides draw collected.distinct collected.limits
    · intro order member
      rw [collected.unfilled order member]
      exact collected.whole order member
    · intro order member
      rw [collected.unfilled order member]
      exact order.quantity_positive
  · intro order member
    have inOrders := perm.mem_iff.mpr member
    have remaining := collected.unfilled order inOrders
    constructor
    · rw [remaining]
      exact order.quantity_positive.le
    · exact remaining.le
    · rw [remaining]
      exact collected.whole order inOrders
  · exact onSide true .buy
  · exact onSide false .sell
  · exact fun order member =>
      collected.instrument order (perm.mem_iff.mpr member)
  · exact fun order member =>
      collected.absent order (perm.mem_iff.mpr member)

/-- The collected orders and the resting orders have different ids. -/
theorem BatchFacts.distinct
    (facts : BatchFacts instrumentId start buys sells) :
    (((buys ++ sells) ++ start.book.resting).map
      Order.orderId).Nodup := by
  rw [List.map_append]
  apply List.nodup_append.mpr
  refine ⟨facts.sides.distinct, facts.invariant.shape.distinct, ?_⟩
  intro orderId inBatch other inBook equal
  rcases List.mem_map.mp inBatch with ⟨order, member, rfl⟩
  rcases List.mem_map.mp inBook with ⟨resting, restingMember, rfl⟩
  apply facts.absent order member
  rw [equal]
  exact facts.invariant.shape.contains_orderId restingMember

/-- The sell orders and those they meet, before all the others. -/
theorem BatchFacts.distinct_selling
    (facts : BatchFacts instrumentId start buys sells) :
    (((sells ++ start.book.restingOn .buy) ++
      (buys ++ start.book.restingOn .sell)).map Order.orderId).Nodup := by
  refine (List.Perm.nodup_iff (List.Perm.map _ ?_)).mp facts.distinct
  rw [OrderBook.resting, List.append_assoc, List.append_assoc]
  exact (List.perm_append_comm_assoc _ _ _).trans
    ((List.perm_append_comm_assoc _ _ _).append_left sells)

/-- What takes part in one clearing does not take part in the other. -/
theorem BatchFacts.apart
    (facts : BatchFacts instrumentId start buys sells)
    {selling buying : Order}
    (sellingMember : selling ∈ sells ++ start.book.restingOn .buy)
    (buyingMember : buying ∈ buys ++ start.book.restingOn .sell) :
    selling.orderId ≠ buying.orderId :=
  orderId_apart facts.distinct_selling sellingMember buyingMember

end Facts

/-! ### The buy orders against the sell orders -/

/-- The book is as before but for its history, and the pairs are made. -/
structure Paired (start : BookState) (buys sells : List Order)
    (state : BookState) : Prop where
  clears : Clears start.heap Order.limit buys sells state.heap
  whole : ∀ order ∈ buys ++ sells, Whole (state.heap.remaining order)
  same : SameShape start.book state.book
  levels : ∀ side, state.book.levels side = start.book.levels side

theorem BookInv.congr_book {heap : Heap} {book changed : OrderBook}
    (invariant : BookInv ⟨heap, book⟩) (same : SameShape book changed)
    (levels : ∀ side, changed.levels side = book.levels side) :
    BookInv ⟨heap, changed⟩ where
  shape := same.keeps invariant.shape
  quantities :=
    { totals := by
        intro side level member
        rw [levels] at member
        exact invariant.quantities.totals side level member
      fillable := by
        intro order member
        rw [same.resting] at member
        exact invariant.quantities.fillable order member
      positive := by
        intro order member
        rw [same.resting] at member
        exact invariant.quantities.positive order member }

section Phases

variable {instrumentId : String} {start paired bought : BookState}
  {buys sells : List Order}

namespace Paired

/-- The resting orders have nothing to do with the pairs. -/
theorem resting (facts : BatchFacts instrumentId start buys sells)
    (state : Paired start buys sells paired) :
    ∀ order ∈ start.book.resting,
      paired.heap.remaining order = start.heap.remaining order := by
  intro order member
  apply state.clears.filled.unchanged
  intro other inBatch
  exact (orderId_apart facts.distinct inBatch member).symm

theorem invariant (facts : BatchFacts instrumentId start buys sells)
    (state : Paired start buys sells paired) : BookInv paired := by
  have agree := state.resting facts
  exact (facts.invariant.congr_heap agree).congr_book state.same
    state.levels

theorem fillable (facts : BatchFacts instrumentId start buys sells)
    (state : Paired start buys sells paired) :
    ∀ order ∈ buys ++ sells, order.Fillable paired.heap :=
  fun order member =>
    state.clears.filled.fillable member (facts.fillable order member)
      (state.whole order member)

/-- The buy orders take from the sell orders which rested before. -/
theorem takingSides (facts : BatchFacts instrumentId start buys sells)
    (state : Paired start buys sells paired) :
    TakingSides .buy buys (start.book.restingOn .sell) [] paired.heap := by
  constructor
  · rw [List.append_nil]
    exact facts.distinct.sublist
      (((List.sublist_append_left _ _).append
        (OrderBook.restingOn_sublist .sell)).map _)
  · intro order member
    exact ⟨facts.sides.limits order (List.mem_append_left _ member),
      facts.isBuy order member⟩
  · exact facts.sides.bestBuys
  · exact fun order member =>
      state.fillable facts order (List.mem_append_left _ member)
  · intro maker member
    have resting := OrderBook.mem_resting_of_mem member
    rw [state.resting facts maker resting]
    exact (facts.invariant.quantities.positive maker resting).le
  · intro stranger member
    cases member

/-- No buy order has been added yet. -/
theorem takenInTurn (facts : BatchFacts instrumentId start buys sells)
    (state : Paired start buys sells paired) :
    TakenInTurn .buy buys (start.book.restingOn .sell) []
      (start.book.restingOn .buy) [] (unfilledIn paired.heap buys)
      paired.heap instrumentId paired := by
  have sides := state.takingSides facts
  have invariant := state.invariant facts
  have unfilled : ∀ {side} order, order ∈ start.book.restingOn side →
      ¬ order.IsFilled paired.heap := by
    intro side order member
    have resting := OrderBook.mem_resting_of_mem member
    rw [← state.same.resting] at resting
    exact invariant.quantities.unfilled resting
  constructor
  · constructor
    · apply FilledFairly.start
      intro order member
      rcases List.mem_append.mp member with taker | maker
      · exact (sides.fillable order taker).nonnegative
      · exact sides.makers order maker
    · intro taker member
      cases member
    · intro other member _
      rw [List.append_nil] at member
      rw [state.same.restingOn]
      exact member
    · intro other member
      rw [state.same.restingOn] at member
      rw [List.append_nil]
      exact member
  · exact invariant
  · exact state.same.instrument.trans facts.named
  · intro taker member
    have inBatch : taker ∈ buys ++ sells :=
      List.mem_append_left _ (mem_unfilledIn.mp member).1
    refine ⟨⟨?_, ?_⟩, rfl⟩
    · rw [state.same.instrument, facts.named]
      exact facts.instrument taker inBatch
    · rw [state.same.ids]
      exact facts.absent taker inBatch
  · rw [state.same.restingOn, List.append_nil, unfilledIn,
      List.filter_eq_self.mpr]
    intro order member
    exact decide_eq_true (unfilled order member)

end Paired

/-! ### What is left of the sell orders -/

/-- The buy orders have been added to the book. -/
structure Bought (instrumentId : String) (start : BookState)
    (buys sells : List Order) (paired : Heap) (state : BookState) :
    Prop where
  taken : TakenInTurn .buy buys (start.book.restingOn .sell) []
    (start.book.restingOn .buy) (unfilledIn paired buys) [] paired
    instrumentId state
  clears : Clears paired OrderSide.buy.worth buys
    (start.book.restingOn .sell) state.heap

namespace Bought

/-- Neither a sell order nor a resting buy order has been touched. -/
theorem untouched (facts : BatchFacts instrumentId start buys sells)
    (state : Bought instrumentId start buys sells paired.heap bought) :
    ∀ order ∈ sells ++ start.book.restingOn .buy,
      bought.heap.remaining order = paired.heap.remaining order := by
  intro order member
  apply state.clears.filled.unchanged
  intro other inBuying
  exact facts.apart member inBuying

/-- The sell orders take from the buy orders which rested before. -/
theorem takingSides (facts : BatchFacts instrumentId start buys sells)
    (before : Paired start buys sells paired)
    (state : Bought instrumentId start buys sells paired.heap bought) :
    TakingSides .sell sells (start.book.restingOn .buy)
      (unfilledIn paired.heap buys) bought.heap := by
  have untouched := state.untouched facts
  constructor
  · have distinct := facts.distinct_selling
    rw [List.append_assoc] at distinct
    exact distinct.sublist (((List.Sublist.refl _).append
      ((List.Sublist.refl _).append (List.filter_sublist.trans
        (List.sublist_append_left _ _)))).map _)
  · intro order member
    exact ⟨facts.sides.limits order (List.mem_append_right _ member),
      facts.isSell order member⟩
  · exact facts.sides.bestSells.imp neg_le_neg
  · intro order member
    exact (before.fillable facts order
      (List.mem_append_right _ member)).congr
        (untouched order (List.mem_append_left _ member))
  · intro maker member
    have resting := OrderBook.mem_resting_of_mem member
    rw [untouched maker (List.mem_append_right _ member),
      before.resting facts maker resting]
    exact (facts.invariant.quantities.positive maker resting).le
  · intro stranger strangerMember taker takerMember takerOpen
    rcases mem_unfilledIn.mp strangerMember with
      ⟨isBuy, strangerOpen⟩
    rw [Order.IsFilled,
      untouched taker (List.mem_append_left _ takerMember)] at takerOpen
    apply neg_lt_neg
    apply before.clears.exhausted stranger isBuy taker takerMember
    · exact before.clears.filled.lt_of_unfilled
        (List.mem_append_left _ isBuy) strangerOpen
    · exact before.clears.filled.lt_of_unfilled
        (List.mem_append_right _ takerMember) takerOpen

/-- No sell order has been added yet. -/
theorem takenInTurn (facts : BatchFacts instrumentId start buys sells)
    (before : Paired start buys sells paired)
    (state : Bought instrumentId start buys sells paired.heap bought) :
    TakenInTurn .sell sells (start.book.restingOn .buy)
      (unfilledIn paired.heap buys) (start.book.restingOn .sell) []
      (unfilledIn bought.heap sells) bought.heap instrumentId bought := by
  have sides := state.takingSides facts before
  have asks := state.taken.queue_perm (before.takingSides facts)
  rw [List.append_nil] at asks
  constructor
  · constructor
    · apply FilledFairly.start
      intro order member
      rcases List.mem_append.mp member with taker | maker
      · exact (sides.fillable order taker).nonnegative
      · exact sides.makers order maker
    · intro taker member
      cases member
    · intro other member unfilled
      exact state.taken.own.mem_iff.mpr
        (mem_unfilledIn.mpr ⟨member, unfilled⟩)
    · intro other member
      exact (mem_unfilledIn.mp (state.taken.own.mem_iff.mp member)).1
  · exact state.taken.invariant
  · exact state.taken.named
  · intro taker member
    have isSell := (mem_unfilledIn.mp member).1
    have inBatch : taker ∈ buys ++ sells :=
      List.mem_append_right _ isSell
    refine ⟨⟨?_, ?_⟩, rfl⟩
    · rw [state.taken.named]
      exact facts.instrument taker inBatch
    · intro present
      rcases (state.taken.invariant.shape.ids _).mp present with
        ⟨candidate, candidateMember, equal⟩
      have elsewhere : candidate ∉ start.book.resting := by
        intro resting
        apply facts.absent taker inBatch
        rw [← equal]
        exact facts.invariant.shape.contains_orderId resting
      rcases (@OrderBook.mem_resting_iff _ .buy _).mp candidateMember
        with bid | ask
      · have inQueue := (mem_unfilledIn.mp
          (state.taken.own.mem_iff.mp bid)).1
        rcases List.mem_append.mp inQueue with before | buying
        · exact elsewhere (OrderBook.mem_resting_of_mem before)
        · exact orderId_apart facts.sides.distinct
            (mem_unfilledIn.mp buying).1 isSell equal
      · exact elsewhere (OrderBook.mem_resting_of_mem
          (mem_unfilledIn.mp (asks.mem_iff.mp ask)).1)
  · rw [List.append_nil]
    exact asks

end Bought

/-- All three clearings, one after another. -/
theorem batchCleared (facts : BatchFacts instrumentId start buys sells)
    {reached : BookState}
    (before : Paired start buys sells paired)
    (state : Bought instrumentId start buys sells paired.heap bought)
    (taken : TakenInTurn .sell sells (start.book.restingOn .buy)
      (unfilledIn paired.heap buys) (start.book.restingOn .sell)
      (unfilledIn bought.heap sells) [] bought.heap instrumentId
      reached) :
    BatchCleared start buys sells paired.heap bought.heap reached where
  pairing := before.clears
  buying := state.clears
  selling := ⟨taken.taking.filled, taken.exhausted⟩
  buyQueue := taken.queue_perm (state.takingSides facts before)
  sellQueue := taken.own
  invariant := taken.invariant

end Phases

/-! ### The batch of one instrument -/

section OneInstrument

variable {instrumentId : String} {start : BookState}
  {orders : List Order} {context : BatchContext}

/--
What is left of the two sides of the orders is added to the book.  What the
trades keep still holds.
-/
theorem addLeft {buys sells : List Order} {paired : BookState}
    (facts : BatchFacts instrumentId start buys sells)
    (before : Paired start buys sells paired)
    (has : HasBook instrumentId context paired)
    (kept : Heap → Prop) (holds : kept paired.heap)
    (keepsBuying : ∀ order fill reached,
      TakerTrade .buy buys (start.book.restingOn .sell) [] paired.heap
          order fill reached →
        kept reached.heap → kept (reached.afterFill order fill).heap)
    (keepsSelling : ∀ bought order fill reached,
      Bought instrumentId start buys sells paired.heap bought →
        TakerTrade .sell sells (start.book.restingOn .buy)
            (unfilledIn paired.heap buys) bought.heap order fill
            reached →
          kept reached.heap → kept (reached.afterFill order fill).heap) :
    Ends
      (BatchMatchingEngine.addOrdersToBook instrumentId
        (unfilledIn paired.heap buys ++ unfilledIn paired.heap sells))
      context
      (fun _ reached => ∃ bought after,
        HasBook instrumentId reached after ∧
          BatchCleared start buys sells paired.heap bought after ∧
          kept after.heap)
      (fun _ _ => False) := by
  have buying := addTakers (before.takingSides facts)
    (by
      intro order member inBuying
      rcases List.mem_map.mp inBuying with ⟨other, otherMember, equal⟩
      exact facts.apart (List.mem_append_right _ member) otherMember
        equal.symm)
    has (before.takenInTurn facts) kept holds keepsBuying
  rw [addOrdersToBook_append]
  apply buying.bind
  rintro _ middle ⟨bought, hasBought, taken, holdsBought⟩
  have state : Bought instrumentId start buys sells paired.heap bought :=
    ⟨taken, taken.taking.filled, taken.exhausted⟩
  have left : unfilledIn paired.heap sells =
      unfilledIn bought.heap sells :=
    (unfilledIn_congr fun order member =>
      state.untouched facts order (List.mem_append_left _ member)).symm
  have selling := addTakers (state.takingSides facts before)
    (by
      intro order member inSelling
      rcases List.mem_map.mp inSelling with ⟨other, otherMember, equal⟩
      exact facts.apart otherMember (List.mem_append_right _ member)
        equal)
    hasBought (state.takenInTurn facts before) kept holdsBought
    (fun order fill reached => keepsSelling bought order fill reached
      state)
  rw [left]
  refine selling.mono ?_ fun _ _ impossible => impossible
  rintro _ reached ⟨after, hasAfter, finished, holdsAfter⟩
  exact ⟨bought.heap, after, hasAfter,
    batchCleared facts before state finished, holdsAfter⟩

/-- The two sides are paired, and what is left is added to the book. -/
theorem pairThenAdd {buys sells : List Order}
    (facts : BatchFacts instrumentId start buys sells)
    (has : HasBook instrumentId context start) :
    Ends
      (do
        let left ←
          BatchMatchingEngine.pairOrders (buys.length + sells.length + 1)
            buys sells
        BatchMatchingEngine.addOrdersToBook instrumentId
          (left.1 ++ left.2))
      context
      (fun _ reached => ∃ paired bought after,
        HasBook instrumentId reached after ∧
          BatchCleared start buys sells paired bought after)
      (fun _ _ => False) := by
  have sides := facts.sides
  rw [← has.heap] at sides
  apply (pairOrders_cleared context sides (Nat.lt_succ_self _)
    (fun _ => True) trivial fun _ _ _ _ _ _ => trivial).bind
  rintro left reached ⟨cleared, _⟩
  rcases cleared.pairing.levels _ _ has.found with
    ⟨book, found, same, levels⟩
  rw [cleared.pairing.buying, cleared.pairing.selling]
  have clears : Clears start.heap Order.limit buys sells
      reached.market.heap := by
    rw [← has.heap]
    exact ⟨cleared.pairing.filled, cleared.exhausted⟩
  have before : Paired start buys sells ⟨reached.market.heap, book⟩ :=
    ⟨clears, cleared.pairing.whole, same, levels⟩
  refine (addLeft facts before ⟨found, rfl⟩ (fun _ => True) trivial
    (fun _ _ _ _ _ => trivial) fun _ _ _ _ _ _ _ => trivial).mono ?_
    fun _ _ impossible => impossible
  rintro _ last ⟨bought, after, hasAfter, all, _⟩
  exact ⟨_, bought, after, hasAfter, all⟩

/-- The orders of one instrument are matched, without an exception. -/
theorem matchInstrument_cleared (draw : String → ℚ)
    (has : HasBook instrumentId context start)
    (collected : CollectedFor instrumentId start orders)
    (invariant : BookInv start)
    (named : start.book.instrumentId = instrumentId) :
    Ends
      (BatchMatchingEngine.matchInstrument draw (instrumentId, orders))
      context
      (fun _ reached => ∃ paired bought after,
        HasBook instrumentId reached after ∧
          BatchCleared start
            (BatchMatchingEngine.randomizeSamePriceOrders draw true
              (orders.filter fun order => order.side = .buy))
            (BatchMatchingEngine.randomizeSamePriceOrders draw false
              (orders.filter fun order => order.side = .sell))
            paired bought after)
      (fun _ _ => False) := by
  have listed : context.market.orderBooks.Contains instrumentId :=
    OrderedDict.contains_of_get? has.found
  rw [matchInstrument_eq, ends_get_bind, if_pos listed]
  exact pairThenAdd (collected.facts draw invariant named) has

end OneInstrument

/-! ## The whole batch -/

/-- The engine collects the orders in the order of their submission. -/
def collectAll (orders : List Order) : PendingOrders :=
  orders.foldl BatchMatchingEngine.collect ∅

/-- The batch of these orders. -/
def executeOrders (draw : String → ℚ) (orders : List Order) :
    BatchM BatchResults :=
  BatchMatchingEngine.runBatch draw (collectAll orders)

section Whole

variable {instrumentId : String} {orders : List Order}
  {context : BatchContext} {start : BookState}

theorem collect_entries {pending : PendingOrders} {order : Order}
    {waiting : List Order}
    (entries : pending.entries = [(instrumentId, waiting)])
    (instrument : order.instrumentId = instrumentId) :
    (BatchMatchingEngine.collect pending order).entries =
      [(instrumentId, waiting ++ [order])] := by
  have found : pending.get? instrumentId = some waiting := by
    rw [OrderedDict.get?_eq_some_iff, entries]
    exact List.mem_cons_self
  rw [BatchMatchingEngine.collect, instrument, found, OrderedDict.set,
    dif_pos (OrderedDict.contains_of_get? found)]
  simp only [OrderedDict.overwrite, entries, List.map_cons, List.map_nil,
    if_true, Option.getD_some]

/-- All orders of one instrument wait together. -/
theorem collectAll_entries (some_ : orders ≠ [])
    (instrument : ∀ order ∈ orders,
      order.instrumentId = instrumentId) :
    (collectAll orders).entries = [(instrumentId, orders)] := by
  have collected : ∀ (later : List Order) (pending : PendingOrders)
      (waiting : List Order),
      pending.entries = [(instrumentId, waiting)] →
      (∀ order ∈ later, order.instrumentId = instrumentId) →
        (later.foldl BatchMatchingEngine.collect pending).entries =
          [(instrumentId, waiting ++ later)] := by
    intro later
    induction later with
    | nil =>
        intro pending waiting entries _
        rw [List.append_nil]
        exact entries
    | cons order rest induction =>
        intro pending waiting entries inside
        have next := induction _ _
          (collect_entries entries (inside order List.mem_cons_self))
          fun other member => inside other (List.mem_cons_of_mem _ member)
        rw [List.append_assoc] at next
        exact next
  cases orders with
  | nil => exact absurd rfl some_
  | cons order rest =>
      apply collected rest _ [order]
      · rw [← instrument order List.mem_cons_self]
        rfl
      · exact fun other member =>
          instrument other (List.mem_cons_of_mem _ member)

/-- Without orders the book stays as it is. -/
theorem batchCleared_empty (invariant : BookInv start) :
    BatchCleared start [] [] start.heap start.heap start := by
  have resting : ∀ side, unfilledIn start.heap
      (start.book.restingOn side ++ []) = start.book.restingOn side := by
    intro side
    rw [List.append_nil]
    apply List.filter_eq_self.mpr
    intro order member
    exact decide_eq_true (invariant.quantities.unfilled
      (OrderBook.mem_resting_of_mem member))
  have clears : ∀ (price : Order → ℚ) (side : OrderSide),
      Clears start.heap price [] (start.book.restingOn side)
        start.heap := by
    intro price side
    refine ⟨FilledFairly.start ?_, fun bid member => ?_⟩
    · intro order member
      exact (invariant.quantities.positive order
        (OrderBook.mem_resting_of_mem member)).le
    · cases member
  constructor
  · refine ⟨FilledFairly.start ?_, fun bid member => ?_⟩
    · intro order member
      cases member
    · cases member
  · exact clears _ .sell
  · exact clears _ .buy
  · exact List.Perm.of_eq (resting .buy).symm
  · exact List.Perm.of_eq (resting .sell).symm
  · exact invariant

/-- A batch clears its book, without an exception. -/
theorem executeOrders_cleared (draw : String → ℚ)
    (has : HasBook instrumentId context start)
    (collected : CollectedFor instrumentId start orders)
    (invariant : BookInv start)
    (named : start.book.instrumentId = instrumentId) :
    Ends (executeOrders draw orders) context
      (fun _ reached => ∃ paired bought after,
        HasBook instrumentId reached after ∧
          BatchCleared start
            (BatchMatchingEngine.randomizeSamePriceOrders draw true
              (orders.filter fun order => order.side = .buy))
            (BatchMatchingEngine.randomizeSamePriceOrders draw false
              (orders.filter fun order => order.side = .sell))
            paired bought after)
      (fun _ _ => False) := by
  have matching : Ends
      (BatchMatchingEngine.matchBatchOrders draw (collectAll orders))
      context
      (fun _ reached => ∃ paired bought after,
        HasBook instrumentId reached after ∧
          BatchCleared start
            (BatchMatchingEngine.randomizeSamePriceOrders draw true
              (orders.filter fun order => order.side = .buy))
            (BatchMatchingEngine.randomizeSamePriceOrders draw false
              (orders.filter fun order => order.side = .sell))
            paired bought after)
      (fun _ _ => False) := by
    by_cases some_ : orders = []
    · subst some_
      exact ⟨start.heap, start.heap, start, has,
        batchCleared_empty invariant⟩
    · rw [BatchMatchingEngine.matchBatchOrders,
        collectAll_entries some_ collected.instrument]
      show Ends
        (BatchMatchingEngine.matchInstrument draw
          (instrumentId, orders) >>= fun _ => pure PUnit.unit) _ _ _
      exact (matchInstrument_cleared draw has collected invariant
        named).bind fun _ _ facts => facts
  apply matching.bind
  rintro _ matched ⟨paired, bought, after, hasAfter, cleared⟩
  apply (finalizeResults_market (collectAll orders) matched).bind
  intro _ finished equal
  rw [ends_get_bind, ends_pure]
  refine ⟨paired, bought, after, ⟨?_, ?_⟩, cleared⟩
  · rw [equal]
    exact hasAfter.found
  · rw [equal]
    exact hasAfter.heap

end Whole

end InternTradingGame
