import InternTradingGame.Exchange.WholeObjects
import InternTradingGame.OrderBook.Queues

/-!
# What a continuous result says about the book

The continuous engine reads the status of its result off the order alone,
while the book keeps the remainder of a limit order only.  A remainder of a
market order is dropped, and reported as new or partially filled.  An order
object which comes back after a partial fill is reported as filled by the
fills of both submissions, of which the result shows the last ones.  In all
other cases the result describes the book.
-/

namespace InternTradingGame

open Effects

/-! ## What matching takes from the other side -/

/-- What the other side offers at prices which the order accepts. -/
def BookState.offered (state : BookState) (order : Order) : ℚ :=
  (((state.book.restingOn order.side.opposite).filter
      fun other => ¬ order.Refuses other.limit).map
    state.heap.remaining).sum

section Conserves

variable {order : Order} {start reached : BookState}
  {trades : List Trade} {fill : Fill}

/-- A trade takes its quantity from what is offered. -/
theorem Fill.Next.offered_add (next : fill.Next order reached)
    (shape : BookShape reached.book)
    (absent : order.orderId ∉ reached.book.orderIds) :
    (reached.afterFill order fill).offered order + fill.trade.quantity =
      reached.offered order := by
  have behind :
      ((fill.queue ++ fill.deeper.flatMap PriceLevel.orders).filter
          fun other => ¬ order.Refuses other.limit).map
          (reached.afterFill order fill).heap.remaining =
        ((fill.queue ++ fill.deeper.flatMap PriceLevel.orders).filter
          fun other => ¬ order.Refuses other.limit).map
          reached.heap.remaining := by
    apply List.map_congr_left
    intro other filtered
    have member := (List.mem_filter.mp filtered).1
    have resting : other ∈ reached.book.resting := by
      apply @OrderBook.mem_resting_of_mem _ order.side.opposite
      rw [next.restingOn]
      exact List.mem_cons_of_mem _ member
    exact Fill.Next.remaining_resting shape absent resting
      (next.ne_of_mem_behind shape member)
  have accepted : ¬ order.Refuses fill.matching.limit := by
    rw [limit_of_mem shape next.mem_levels next.mem_orders]
    exact next.accepted
  have first : ∀ queue : List Order,
      ((fill.matching :: queue).filter
          fun other => ¬ order.Refuses other.limit) =
        fill.matching ::
          queue.filter fun other => ¬ order.Refuses other.limit :=
    fun _ => List.filter_cons_of_pos (decide_eq_true accepted)
  rw [BookState.offered, BookState.offered, next.restingOn_after,
    next.restingOn, first]
  split_ifs with completes
  · rw [behind, List.map_cons, List.sum_cons,
      show reached.heap.remaining fill.matching = fill.trade.quantity
        from completes, add_comm]
  · rw [first, List.map_cons, List.map_cons, List.sum_cons, List.sum_cons,
      behind, Fill.Next.remaining_matching]
    ring

/-- What the trades add up to has left both the order and the book. -/
structure Conserves (order : Order) (start : BookState)
    (trades : List Trade) (reached : BookState) : Prop where
  own :
    reached.heap.remaining order + (trades.map Trade.quantity).sum =
      start.heap.remaining order
  offered :
    reached.offered order + (trades.map Trade.quantity).sum =
      start.offered order

theorem Conserves.refl (order : Order) (start : BookState) :
    Conserves order start [] start where
  own := by simp
  offered := by simp

theorem Conserves.step (conserves : Conserves order start trades reached)
    (next : fill.Next order reached) (shape : BookShape reached.book)
    (absent : order.orderId ∉ reached.book.orderIds) :
    Conserves order start (trades ++ [fill.trade])
      (reached.afterFill order fill) where
  own := by
    rw [List.map_append, List.sum_append, List.map_singleton,
      List.sum_singleton, next.remaining_order shape absent,
      ← conserves.own]
    ring
  offered := by
    rw [List.map_append, List.sum_append, List.map_singleton,
      List.sum_singleton, ← conserves.offered,
      ← next.offered_add shape absent]
    ring

/-- An order which is not filled leaves nothing it would accept. -/
theorem MatchingDone.offered_eq_zero (done : MatchingDone order reached)
    (shape : BookShape reached.book)
    (unfilled : ¬ order.IsFilled reached.heap) :
    reached.offered order = 0 := by
  have none : (reached.book.restingOn order.side.opposite).filter
      (fun other => ¬ order.Refuses other.limit) = [] := by
    rw [List.filter_eq_nil_iff]
    intro other member accepts
    rcases OrderBook.mem_restingOn_iff.mp member with
      ⟨level, levelMember, inLevel⟩
    apply of_decide_eq_true accepts
    rw [limit_of_mem shape levelMember inLevel]
    exact done.refuses shape unfilled level levelMember
  rw [BookState.offered, none, List.map_nil, List.sum_nil]

/-- An order is filled exactly if the other side offers enough. -/
theorem Conserves.filled_iff
    (conserves : Conserves order start trades reached)
    (done : MatchingDone order reached) (shape : BookShape reached.book)
    (own : 0 ≤ reached.heap.remaining order)
    (resting : ∀ other ∈ reached.book.resting,
      0 ≤ reached.heap.remaining other) :
    order.IsFilled reached.heap ↔
      start.heap.remaining order ≤ start.offered order := by
  rw [← conserves.own, ← conserves.offered, add_le_add_iff_right]
  constructor
  · intro filled
    rw [show reached.heap.remaining order = 0 from filled]
    apply List.sum_nonneg
    intro quantity member
    rcases List.mem_map.mp member with ⟨other, filtered, rfl⟩
    exact resting other
      (OrderBook.mem_resting_of_mem (List.mem_filter.mp filtered).1)
  · intro enough
    by_contra unfilled
    rw [done.offered_eq_zero shape unfilled] at enough
    exact unfilled (le_antisymm enough own)

/-- Resting makes no trade. -/
theorem rest_history :
    (reached.rest order).book.trades = reached.book.trades := by
  rcases @rest_cases order reached with unchanged | ⟨limit, _, _, inserted⟩
  · rw [unchanged]
  · rw [inserted]
    simp [BookState.inserted]

/-- The order rests afterwards if it is an unfilled limit order. -/
theorem mem_rest_iff (shape : BookShape reached.book)
    (absent : order.orderId ∉ reached.book.orderIds)
    (instrument : order.instrumentId = reached.book.instrumentId) :
    order ∈ (reached.rest order).book.resting ↔
      order.IsLimitOrder ∧ ¬ order.IsFilled reached.heap := by
  have away : order ∉ reached.book.resting :=
    fun member => shape.not_mem_resting absent order member rfl
  constructor
  · intro member
    rcases @rest_cases order reached with
      unchanged | ⟨limit, priced, unfilled, _⟩
    · exact absurd (unchanged ▸ member) away
    · exact ⟨(order.isLimitOrder_iff).mpr ⟨limit, priced⟩, unfilled⟩
  · rintro ⟨isLimit, unfilled⟩
    rcases (order.isLimitOrder_iff).mp isLimit with ⟨limit, priced⟩
    rw [BookState.rest]
    simp only [priced, if_neg unfilled]
    exact (inserted_inserted shape instrument priced).mem_changed_iff.mpr
      (Or.inl rfl)

end Conserves

/-! ## The continuous engine -/

/-- The order has been matched, and its remainder has been rested. -/
structure ContinuouslyMatched (market : Market) (order : Order)
    (book : OrderBook) (trades : List Trade) (matched : BookState) :
    Prop where
  changes : Matched order ⟨market.heap, book⟩ trades matched
  recorded : Recorded ⟨market.heap, book⟩ trades matched
  conserves : Conserves order ⟨market.heap, book⟩ trades matched
  shape : BookShape matched.book
  absent : order.orderId ∉ matched.book.orderIds
  instrument : order.instrumentId = matched.book.instrumentId
  done : MatchingDone order matched

/-- The status the engine reports. -/
def statusOf (order : Order) (heap : Heap) (trades : List Trade) :
    OrderStatus :=
  if order.IsFilled heap then
    .filled
  else if trades.isEmpty then
    .new
  else
    .partiallyFilled

theorem statusOf_open_iff {order : Order} {heap : Heap}
    {trades : List Trade} :
    statusOf order heap trades = .new ∨
        statusOf order heap trades = .partiallyFilled ↔
      ¬ order.IsFilled heap := by
  rw [statusOf]
  split_ifs with filled empty
  · simp [filled]
  · simp [filled]
  · simp [filled]

theorem statusOf_filled_iff {order : Order} {heap : Heap}
    {trades : List Trade} :
    statusOf order heap trades = .filled ↔ order.IsFilled heap := by
  rw [statusOf]
  split_ifs with filled empty
  · simp [filled]
  · simp [filled]
  · simp [filled]

section Engine

variable {market : Market} {order : Order} {book : OrderBook}

theorem onBook_addOrder_matched (shape : MarketShape market)
    (found : market.orderBooks.get? order.instrumentId = some book) :
    Ends
      (Market.onBook order.instrumentId (OrderBook.addOrder order)) market
      (fun trades after =>
        ∃ matched, after =
            market.withBook order.instrumentId (matched.rest order) ∧
          ContinuouslyMatched market order book trades matched)
      (fun _ _ => True) := by
  have bookShape := shape.books _ book found
  apply Market.onBook_ends found
  refine
    (addOrder_ends
      (fun trades reached =>
        Recorded ⟨market.heap, book⟩ trades reached ∧
          Conserves order ⟨market.heap, book⟩ trades reached)
      bookShape ?_ ?_).mono ?_ (fun _ _ _ => trivial)
  · rintro trades reached fill _ reachedShape absent
      ⟨recorded, conserves⟩ next
    exact ⟨recorded.step, conserves.step next reachedShape absent⟩
  · intro _
    exact ⟨Recorded.refl bookShape, Conserves.refl _ _⟩
  · rintro trades part ⟨addable, matched, rfl, changes,
      ⟨recorded, conserves⟩, matchedShape, absent, done⟩
    exact ⟨matched, rfl,
      { changes := changes
        recorded := recorded
        conserves := conserves
        shape := matchedShape
        absent := absent
        instrument := addable.instrument.trans changes.instrument.symm
        done := done }⟩

/-- The result of the engine and the market it leaves. -/
theorem continuous_submitOrder_matched (shape : MarketShape market)
    (found : market.orderBooks.get? order.instrumentId = some book) :
    Ends (ContinuousMatchingEngine.submitOrder order) market
      (fun result after =>
        ∃ matched, after =
            market.withBook order.instrumentId (matched.rest order) ∧
          ContinuouslyMatched market order book result.fills matched ∧
          result.status = statusOf order matched.heap result.fills ∧
          result.remainingQuantity = matched.heap.remaining order)
      (fun _ _ => True) := by
  rw [ContinuousMatchingEngine.submitOrder]
  apply (onBook_addOrder_matched shape found).bind
  rintro trades after ⟨matched, rfl, facts⟩
  have heap : (market.withBook order.instrumentId
      (matched.rest order)).heap = matched.heap := rest_heap
  rw [ends_get_bind, ends_pure]
  refine ⟨matched, rfl, facts, ?_, ?_⟩
  · show (if order.IsFilled _ then _ else _) = statusOf _ _ _
    rw [heap]
    rfl
  · show (market.withBook _ _).heap.remaining order = _
    rw [heap]

end Engine

/-! ## Results and books -/

/-- The order rests in the book of its instrument with this quantity left. -/
def Market.RestsWith (market : Market) (order : Order) (quantity : ℚ) :
    Prop :=
  ∃ book, market.orderBooks.get? order.instrumentId = some book ∧
    order ∈ book.resting ∧ market.heap.remaining order = quantity

/-- The result tells what has become of the order in the book. -/
structure DescribesBook (before after : Market) (order : Order)
    (result : OrderResult) : Prop where
  rests :
    result.status = .new ∨ result.status = .partiallyFilled ↔
      0 < result.remainingQuantity ∧
        after.RestsWith order result.remainingQuantity
  filled :
    result.status = .filled ↔
      (result.fills.map Trade.quantity).sum = order.quantity
  made : after.heap.trades = before.heap.trades ++ result.fills
  history : ∀ book,
    before.orderBooks.get? order.instrumentId = some book →
      ∃ changed, after.orderBooks.get? order.instrumentId = some changed ∧
        changed.trades = result.fills.foldl pushTrade book.trades

section Describes

variable {market : Market} {order : Order} {book : OrderBook}
  {matched : BookState} {result : OrderResult}

theorem ContinuouslyMatched.restsWith_iff
    (facts : ContinuouslyMatched market order book result.fills matched)
    (quantity : ℚ) :
    (market.withBook order.instrumentId
        (matched.rest order)).RestsWith order quantity ↔
      (order.IsLimitOrder ∧ ¬ order.IsFilled matched.heap) ∧
        matched.heap.remaining order = quantity := by
  have heap : (market.withBook order.instrumentId
      (matched.rest order)).heap = matched.heap := rest_heap
  have stored := Market.withBook_get?_self market order.instrumentId
    (matched.rest order)
  rw [← mem_rest_iff facts.shape facts.absent facts.instrument,
    Market.RestsWith, heap]
  constructor
  · rintro ⟨other, found, member, left⟩
    rcases Option.some.inj (found.symm.trans stored) with rfl
    exact ⟨member, left⟩
  · rintro ⟨member, left⟩
    exact ⟨_, stored, member, left⟩

/-- The fills are the newest trades of the history. -/
theorem ContinuouslyMatched.history
    (facts : ContinuouslyMatched market order book result.fills matched)
    (found : market.orderBooks.get? order.instrumentId = some book) :
    ∀ before, market.orderBooks.get? order.instrumentId = some before →
      ∃ changed,
        (market.withBook order.instrumentId
          (matched.rest order)).orderBooks.get? order.instrumentId =
            some changed ∧
          changed.trades = result.fills.foldl pushTrade before.trades := by
  intro before stored
  rcases Option.some.inj (stored.symm.trans found) with rfl
  refine ⟨_, Market.withBook_get?_self .., ?_⟩
  rw [rest_history]
  exact facts.recorded.history

/--
The result describes the book exactly if a filled order had its whole
quantity left, and a remainder belongs to a limit order.
-/
theorem ContinuouslyMatched.describesBook_iff
    (facts : ContinuouslyMatched market order book result.fills matched)
    (found : market.orderBooks.get? order.instrumentId = some book)
    (possible : market.heap.remaining order ≤ order.quantity)
    (own : 0 ≤ matched.heap.remaining order)
    (status :
      result.status = statusOf order matched.heap result.fills)
    (remaining :
      result.remainingQuantity = matched.heap.remaining order) :
    DescribesBook market
        (market.withBook order.instrumentId (matched.rest order)) order
        result ↔
      if order.IsFilled matched.heap then
        market.heap.remaining order = order.quantity
      else
        order.IsLimitOrder := by
  have heap : (market.withBook order.instrumentId
      (matched.rest order)).heap = matched.heap := rest_heap
  have total : matched.heap.remaining order +
      (result.fills.map Trade.quantity).sum =
        market.heap.remaining order := facts.conserves.own
  by_cases filled : order.IsFilled matched.heap
  · have none : matched.heap.remaining order = 0 := filled
    rw [if_pos filled, ← total, none, zero_add]
    constructor
    · intro describes
      exact describes.filled.mp (status ▸ statusOf_filled_iff.mpr filled)
    · intro whole
      constructor
      · rw [status, statusOf_open_iff, remaining]
        exact iff_of_false (not_not.mpr filled)
          fun rests => rests.1.ne' none
      · rw [status, statusOf_filled_iff]
        exact iff_of_true filled whole
      · rw [heap]
        exact facts.changes.recorded
      · exact facts.history found
  · have some : 0 < matched.heap.remaining order :=
      lt_of_le_of_ne own (Ne.symm filled)
    rw [if_neg filled]
    constructor
    · intro describes
      have rests := describes.rests.mp
        (status ▸ statusOf_open_iff.mpr filled)
      exact ((facts.restsWith_iff _).mp rests.2).1.1
    · intro isLimit
      constructor
      · rw [status, statusOf_open_iff, facts.restsWith_iff, remaining]
        exact iff_of_true filled ⟨some, ⟨isLimit, filled⟩, rfl⟩
      · rw [status, statusOf_filled_iff]
        refine iff_of_false filled fun all => ?_
        linarith
      · rw [heap]
        exact facts.changes.recorded
      · exact facts.history found

end Describes

/-! ## Submissions to the venue -/

section Submit

variable {venue next clean : ExchangeVenue} {order : Order} {left : ℚ}
  {book : OrderBook} {result : OrderResult}

/-- Registering an object does not change what is offered. -/
theorem registerObject_offered (shape : VenueShape venue)
    (fresh : ∀ taken ∈ venue.market.heap.orders,
      taken.orderId ≠ order.orderId)
    (found :
      venue.market.orderBooks.get? order.instrumentId = some book) :
    BookState.offered
        ⟨(venue.registerObject order left).market.heap, book⟩ order =
      BookState.offered ⟨venue.market.heap, book⟩ order := by
  apply congrArg List.sum
  apply List.map_congr_left
  intro other filtered
  apply ExchangeVenue.remaining_registerObject_ne
  exact fresh other (shape.market.registered other
    ⟨_, book, found,
      OrderBook.mem_resting_of_mem (List.mem_filter.mp filtered).1⟩)

/-- What an object which the continuous engine answers has left behind. -/
theorem VenueSolvent.submitObject_matched (solvent : VenueSolvent venue)
    (allowed : (VenueCall.submitOrder order).Allowed venue)
    (possible : order.orderId ∉ venue.allOrderIds →
      0 < left ∧ left ≤ order.quantity)
    (phase : venue.currentPhaseState.isOrderSubmissionAllowed = true)
    (continuous : venue.shouldUseBatchEngine = false)
    (found :
      venue.market.orderBooks.get? order.instrumentId = some book)
    (returned :
      ExchangeVenue.submitObject order left venue = .ok result next) :
    DescribesBook venue.market next.market order result ↔
      if left ≤ BookState.offered ⟨venue.market.heap, book⟩ order then
        left = order.quantity
      else
        order.IsLimitOrder := by
  have listed := OrderedDict.contains_of_get? found
  have unknown : order.orderId ∉ venue.allOrderIds := by
    intro known
    rw [ExchangeVenue.submitObject_known phase listed known] at returned
    cases returned
  rcases possible unknown with ⟨positive, within⟩
  have fresh : ∀ taken ∈ venue.market.heap.orders,
      taken.orderId ≠ order.orderId :=
    fun taken member equal => unknown (allowed taken member equal)
  have registered := solvent.registerObject fresh positive.le
  have own := @ExchangeVenue.remaining_registerObject_self venue order left
  have engine := VenueLeaves.engine solvent_stays registered listed
  have matching := continuous_submitOrder_matched registered.shape.market
    found
  rw [ExchangeVenue.submitObject_continuous phase listed unknown
    continuous] at returned
  cases evaluated : ContinuousMatchingEngine.submitOrder order
      (venue.registerObject order left).market with
  | error exception after =>
      have raised : ExchangeVenue.onMarket
          (ContinuousMatchingEngine.submitOrder order)
          (venue.registerObject order left) = .error exception _ :=
        zoom_error evaluated
      rw [raised] at returned
      cases returned
  | ok answer after =>
      have answered : ExchangeVenue.onMarket
          (ContinuousMatchingEngine.submitOrder order)
          (venue.registerObject order left) = .ok answer _ :=
        zoom_ok evaluated
      rw [answered] at returned
      cases returned
      have after := (engine.elim_ok evaluated).left
      rcases matching.elim_ok evaluated with
        ⟨matched, rfl, facts, status, remaining⟩
      have reached : matched.heap.Solvent := by
        rw [← @rest_heap order matched]
        exact after
      have nonneg : 0 ≤ matched.heap.remaining order := by
        apply reached
        rw [facts.changes.orders]
        exact registered_mem
      have resting : ∀ other ∈ matched.book.resting,
          0 ≤ matched.heap.remaining other := by
        intro other member
        apply reached
        rw [facts.changes.orders]
        exact registered.shape.market.registered other
          ⟨_, book, found, facts.changes.resting_subset member⟩
      have describes := facts.describesBook_iff found
        (own.trans_le within) nonneg status remaining
      have filled := facts.conserves.filled_iff facts.done facts.shape
        nonneg resting
      simp only [filled] at describes
      rw [own, registerObject_offered solvent.shape fresh found]
        at describes
      exact Iff.trans
        ⟨fun holds =>
            ⟨holds.rests, holds.filled, holds.made, holds.history⟩,
          fun holds =>
            ⟨holds.rests, holds.filled, holds.made, holds.history⟩⟩
        describes

/--
Let an order object with this quantity left be answered by the continuous
engine.  If the other side offers that quantity at prices the order accepts,
the result describes the book exactly if nothing of the object had been
filled before.  Otherwise it does exactly if the order is a limit order.  All
quantities of the run are whole, or its ids tell the orders apart.
-/
theorem submitObject_describesBook_iff {cached baseline : PhaseState}
    {calls : List ObjectCall}
    (run : Run ObjectStep (ExchangeVenue.new cached baseline) calls venue)
    (possible : (ObjectCall.submitObject order left).Possible venue)
    (apart :
      KeptApart (ExchangeVenue.new cached baseline)
        (calls ++ [.submitObject order left]))
    (phase : venue.currentPhaseState.isOrderSubmissionAllowed = true)
    (continuous : venue.shouldUseBatchEngine = false)
    (found :
      venue.market.orderBooks.get? order.instrumentId = some book)
    (returned :
      ExchangeVenue.submitObject order left venue = .ok result next) :
    DescribesBook venue.market next.market order result ↔
      if left ≤ BookState.offered ⟨venue.market.heap, book⟩ order then
        left = order.quantity
      else
        order.IsLimitOrder := by
  rcases apart.separate run possible with ⟨separateRun, separate⟩
  rcases (ShowsSolvent.of_run separateRun).fresh separate with
    ⟨clean, solvent, same, fresh⟩
  rcases (same.submitObject order left).elim_ok_right returned with
    ⟨cleanNext, answered, sameNext⟩
  have engine : clean.shouldUseBatchEngine = false := by
    rw [ExchangeVenue.shouldUseBatchEngine, same.phase]
    exact continuous
  have describes := solvent.submitObject_matched fresh
    (same.possible possible) (same.phase ▸ phase) engine
    (same.orderBooks ▸ found) answered
  rw [same.eq_withOrders, sameNext.eq_withOrders]
  exact Iff.trans
    ⟨fun holds => ⟨holds.rests, holds.filled, holds.made, holds.history⟩,
      fun holds => ⟨holds.rests, holds.filled, holds.made, holds.history⟩⟩
    describes

end Submit

/-- The rest of an offer which comes back rests again. -/
theorem submitObject_describesBook_again :
    ∃ venue book result next,
      Run ObjectStep Sample.closedVenue Sample.cancelledSale venue ∧
        venue.market.orderBooks.get? Sample.sellTen.instrumentId =
            some book ∧
        ExchangeVenue.submitObject Sample.sellTen 6 venue =
            .ok result next ∧
        DescribesBook venue.market next.market Sample.sellTen result := by
  have run : Run ObjectStep Sample.closedVenue Sample.cancelledSale _ :=
    run_replay (by decide +kernel)
  rcases (OrderedDict.contains_iff_exists _ Sample.sellTen.instrumentId).mp
      (by decide +kernel :
        (replay ObjectCall.execute Sample.closedVenue
          Sample.cancelledSale).market.orderBooks.Contains
          Sample.sellTen.instrumentId) with
    ⟨book, found⟩
  have nothing : ∀ other ∈ (replay ObjectCall.execute Sample.closedVenue
      Sample.cancelledSale).market.orderBooks.get? "CALL",
      other.restingOn .buy = [] := by
    decide +kernel
  have answers : (returned (ExchangeVenue.submitObject Sample.sellTen 6
      (replay ObjectCall.execute Sample.closedVenue
        Sample.cancelledSale))).isSome = true := by
    decide +kernel
  cases evaluated : ExchangeVenue.submitObject Sample.sellTen 6
      (replay ObjectCall.execute Sample.closedVenue
        Sample.cancelledSale) with
  | error exception next =>
      rw [evaluated] at answers
      cases answers
  | ok result next =>
      have describes := submitObject_describesBook_iff run
        (by decide +kernel) (Or.inl (by decide +kernel))
        (by decide +kernel) (by decide +kernel) found evaluated
      have offered : BookState.offered
          ⟨(replay ObjectCall.execute Sample.closedVenue
            Sample.cancelledSale).market.heap, book⟩ Sample.sellTen = 0 := by
        have empty : book.restingOn Sample.sellTen.side.opposite = [] :=
          nothing book found
        rw [BookState.offered, empty, List.filter_nil, List.map_nil,
          List.sum_nil]
      rw [offered, if_neg (by decide +kernel)] at describes
      exact ⟨_, book, result, next, run, found, evaluated,
        describes.mpr (by decide +kernel)⟩

/-- A market order which meets nothing is reported as resting. -/
theorem submitOrder_describesBook_dropped :
    ¬ ∀ (cached baseline : PhaseState) (calls : List ObjectCall)
        (venue next : ExchangeVenue) (order : Order)
        (result : OrderResult),
      Run ObjectStep (ExchangeVenue.new cached baseline) calls venue →
        (∀ call ∈ calls, call.WholeLeft) → Whole order.quantity →
        venue.currentPhaseState.isOrderSubmissionAllowed = true →
        venue.shouldUseBatchEngine = false →
        venue.market.orderBooks.Contains order.instrumentId →
        ExchangeVenue.submitOrder order venue = .ok result next →
          DescribesBook venue.market next.market order result := by
  intro always
  have run : Run ObjectStep Sample.closedVenue
      (ObjectCall.operations (Sample.continuousCalls.take 2)) _ :=
    run_replay (by decide +kernel)
  have status : (returned (ExchangeVenue.submitOrder Sample.marketBuy
      (replay ObjectCall.execute Sample.closedVenue
        (ObjectCall.operations
          (Sample.continuousCalls.take 2))))).map OrderResult.status =
            some .new := by
    decide +kernel
  have absent : ∀ book ∈ (finalState
      (ExchangeVenue.submitOrder Sample.marketBuy
        (replay ObjectCall.execute Sample.closedVenue
          (ObjectCall.operations
            (Sample.continuousCalls.take 2))))).market.orderBooks.get?
              "CALL", Sample.marketBuy ∉ book.resting := by
    decide +kernel
  cases evaluated : ExchangeVenue.submitOrder Sample.marketBuy
      (replay ObjectCall.execute Sample.closedVenue
        (ObjectCall.operations (Sample.continuousCalls.take 2))) with
  | error exception next =>
      rw [evaluated] at status
      cases status
  | ok result next =>
      have describes := always _ _ _ _ _ _ _ run (by decide +kernel)
        (by decide +kernel) (by decide +kernel) (by decide +kernel)
        (by decide +kernel) evaluated
      rw [evaluated] at status absent
      rcases describes.rests.mp (Or.inl (Option.some.inj status)) with
        ⟨_, book, found, member, _⟩
      exact absent book found member

end InternTradingGame
