import InternTradingGame.Exchange.AuctionOptimum

/-!
# Market orders in the auction price

The helpers of the strategy skip the orders without a price, and so past the
guard the result is that of the limit orders.  The guard itself counts the
market orders.  A side of market orders alone therefore passes it, and leaves
no price to take the greatest or the least of.
-/

namespace InternTradingGame

namespace MaximumVolumePricingStrategy

section MarketOrders

variable {bids asks orders : List Order}

/-- The limit orders of a side. -/
def limitOrders (orders : List Order) : List Order :=
  orders.filter fun order => order.IsLimitOrder

theorem mem_limitOrders {order : Order} :
    order ∈ limitOrders orders ↔
      order ∈ orders ∧ order.IsLimitOrder := by
  rw [limitOrders, List.mem_filter, decide_eq_true_eq]

theorem limitOrders_append (bids asks : List Order) :
    limitOrders (bids ++ asks) = limitOrders bids ++ limitOrders asks :=
  List.filter_append bids asks

theorem limitOrders_ne_nil :
    limitOrders orders ≠ [] ↔ ∃ order ∈ orders, order.IsLimitOrder := by
  constructor
  · intro some_
    rcases List.exists_mem_of_ne_nil _ some_ with ⟨order, member⟩
    exact ⟨order, mem_limitOrders.mp member⟩
  · rintro ⟨order, isLimitOrder⟩
    exact List.ne_nil_of_mem (mem_limitOrders.mpr isLimitOrder)

theorem wholeLimits_limitOrders
    (whole : ∀ order ∈ orders, Whole order.quantity) :
    WholeLimits (limitOrders orders) := by
  intro order member
  rcases mem_limitOrders.mp member with ⟨listed, isLimit⟩
  exact ⟨isLimit, whole order listed⟩

/-- An order without a price is no limit order. -/
theorem price_of_not_limit {order : Order}
    (isMarket : ¬ order.IsLimitOrder) : order.price = none := by
  cases priced : order.price with
  | none => rfl
  | some limit =>
      exact absurd ((Order.isLimitOrder_iff order).mpr ⟨limit, priced⟩)
        isMarket

/-! ## The helpers skip market orders -/

theorem prices_limitOrders (orders : List Order) :
    (limitOrders orders).filterMap Order.price =
      orders.filterMap Order.price := by
  rw [limitOrders, List.filterMap_filter]
  apply List.filterMap_congr
  intro order _
  by_cases isLimit : order.IsLimitOrder
  · rw [if_pos (decide_eq_true isLimit)]
  · rw [if_neg (by simpa using isLimit), price_of_not_limit isLimit]

theorem eligibleVolume_limitOrders (orders : List Order)
    (eligible : ℚ → Bool) :
    eligibleVolume (limitOrders orders) eligible =
      eligibleVolume orders eligible := by
  rw [eligibleVolume, eligibleVolume, limitOrders, List.filter_filter]
  congr 2
  apply List.filter_congr
  intro order _
  by_cases isLimit : order.IsLimitOrder
  · rw [decide_eq_true isLimit, Bool.and_true]
  · rw [price_of_not_limit isLimit]
    rfl

theorem calculateVolumeAtPrice_limitOrders (bids asks : List Order) :
    calculateVolumeAtPrice (limitOrders bids) (limitOrders asks) =
      calculateVolumeAtPrice bids asks := by
  ext price
  rw [calculateVolumeAtPrice, calculateVolumeAtPrice,
    eligibleVolume_limitOrders, eligibleVolume_limitOrders]

theorem findCrossingRange_limitOrders (bids asks : List Order) :
    findCrossingRange (limitOrders bids) (limitOrders asks) =
      findCrossingRange bids asks := by
  rw [findCrossingRange, findCrossingRange, prices_limitOrders,
    prices_limitOrders]

theorem collectCrossingPrices_limitOrders (bids asks : List Order)
    (minAsk maxBid : ℚ) :
    collectCrossingPrices (limitOrders bids) (limitOrders asks) minAsk
        maxBid =
      collectCrossingPrices bids asks minAsk maxBid := by
  rw [collectCrossingPrices, collectCrossingPrices, ← limitOrders_append,
    prices_limitOrders]

theorem findOptimalPrices_limitOrders (bids asks : List Order)
    (prices : List ℚ) :
    findOptimalPrices (limitOrders bids) (limitOrders asks) prices =
      findOptimalPrices bids asks prices := by
  rw [findOptimalPrices, findOptimalPrices,
    calculateVolumeAtPrice_limitOrders]

/-! ## The guard does not -/

/-- Past the guard the market orders have no effect. -/
theorem calculateClearingPrice_limitOrders
    (someBids : limitOrders bids ≠ []) (someAsks : limitOrders asks ≠ []) :
    calculateClearingPrice (limitOrders bids) (limitOrders asks) =
      calculateClearingPrice bids asks := by
  have pastGuard : ¬ (bids = [] ∨ asks = []) := by
    rintro (rfl | rfl)
    · exact someBids rfl
    · exact someAsks rfl
  rw [calculateClearingPrice, calculateClearingPrice,
    if_neg (not_or.mpr ⟨someBids, someAsks⟩), if_neg pastGuard,
    findCrossingRange_limitOrders]
  simp only [collectCrossingPrices_limitOrders,
    findOptimalPrices_limitOrders]

/-- Without a limit there is no highest bid or no lowest ask. -/
theorem findCrossingRange_raises
    (noLimit : limitOrders bids = [] ∨ limitOrders asks = []) :
    ∃ error, findCrossingRange bids asks = .error error := by
  rw [← findCrossingRange_limitOrders, findCrossingRange]
  rcases noLimit with noBid | noAsk
  · rw [noBid]
    exact ⟨_, rfl⟩
  · rw [noAsk]
    cases ((limitOrders bids).filterMap Order.price).max? with
    | none => exact ⟨_, rfl⟩
    | some maxBid => exact ⟨_, rfl⟩

/-- A side of market orders alone raises past the guard. -/
theorem calculateClearingPrice_raises (someBids : bids ≠ [])
    (someAsks : asks ≠ [])
    (noLimit : limitOrders bids = [] ∨ limitOrders asks = []) :
    ∃ error, calculateClearingPrice bids asks = .error error := by
  rcases findCrossingRange_raises noLimit with ⟨error, raised⟩
  refine ⟨error, ?_⟩
  rw [calculateClearingPrice, if_neg (not_or.mpr ⟨someBids, someAsks⟩),
    raised]
  rfl

/-- The strategy returns what it returns for the limit orders alone. -/
def IgnoresMarketOrders (bids asks : List Order) : Prop :=
  ∃ result, calculateClearingPrice bids asks = .ok result ∧
    calculateClearingPrice (limitOrders bids) (limitOrders asks) =
      .ok result

/-- The guard returns, or both sides have a limit order. -/
def PricedBehindGuard (bids asks : List Order) : Prop :=
  bids = [] ∨ asks = [] ∨
    (∃ bid ∈ bids, bid.IsLimitOrder) ∧ ∃ ask ∈ asks, ask.IsLimitOrder

theorem PricedBehindGuard.ignores
    (priced : PricedBehindGuard bids asks)
    (wholeBids : ∀ bid ∈ bids, Whole bid.quantity)
    (wholeAsks : ∀ ask ∈ asks, Whole ask.quantity) :
    IgnoresMarketOrders bids asks := by
  rcases calculateClearingPrice_optimal
    (wholeLimits_limitOrders wholeBids) (wholeLimits_limitOrders wholeAsks) with
    ⟨result, returned, _⟩
  refine ⟨result, ?_, returned⟩
  rcases priced with rfl | rfl | ⟨someBid, someAsk⟩
  · exact returned
  · rw [← returned]
    exact (calculateClearingPrice_of_empty (Or.inr rfl)).trans
      (calculateClearingPrice_of_empty (Or.inr rfl)).symm
  · rw [← returned]
    exact (calculateClearingPrice_limitOrders
      (limitOrders_ne_nil.mpr someBid)
      (limitOrders_ne_nil.mpr someAsk)).symm

theorem pricedBehindGuard_of_ok {result : AuctionClearingResult}
    (returned : calculateClearingPrice bids asks = .ok result) :
    PricedBehindGuard bids asks := by
  by_contra unpriced
  rcases not_or.mp unpriced with ⟨someBids, rest⟩
  rcases not_or.mp rest with ⟨someAsks, noLimit⟩
  have raises := calculateClearingPrice_raises someBids someAsks (by
    rw [← limitOrders_ne_nil, ← limitOrders_ne_nil] at noLimit
    exact or_iff_not_and_not.mpr noLimit)
  rcases raises with ⟨error, raised⟩
  cases returned.symm.trans raised

end MarketOrders

/--
For whole quantities the price is that of the limit orders alone exactly
where a side is empty or both sides have a limit order.  A side of market
orders alone raises.
-/
theorem calculateClearingPrice_ignores_iff {bids asks : List Order}
    (wholeBids : ∀ bid ∈ bids, Whole bid.quantity)
    (wholeAsks : ∀ ask ∈ asks, Whole ask.quantity) :
    IgnoresMarketOrders bids asks ↔ PricedBehindGuard bids asks := by
  constructor
  · rintro ⟨result, returned, _⟩
    exact pricedBehindGuard_of_ok returned
  · intro priced
    exact priced.ignores wholeBids wholeAsks

/-- A market order beside a limit order changes nothing. -/
theorem calculateClearingPrice_besideMarket :
    IgnoresMarketOrders [Sample.marketBuy, Sample.buyFour]
      [Sample.sellTen] := by
  apply (calculateClearingPrice_ignores_iff (by decide +kernel)
    (by decide +kernel)).mpr
  show _ ∨ _ ∨ _
  decide +kernel

/-- A market buy alone against a limit sell raises. -/
theorem calculateClearingPrice_marketAlone :
    ¬ ∀ bids asks : List Order,
      (∀ bid ∈ bids, Whole bid.quantity) →
        (∀ ask ∈ asks, Whole ask.quantity) →
          IgnoresMarketOrders bids asks := by
  intro ignores
  rcases ignores [Sample.marketBuy]
    [Sample.sellTen] (by decide +kernel) (by decide +kernel) with
    ⟨result, returned, _⟩
  have raised : calculateClearingPrice [Sample.marketBuy]
        [Sample.sellTen] =
      .error (.valueError "max() arg is an empty sequence") := by
    decide +kernel
  cases returned.symm.trans raised

end MaximumVolumePricingStrategy

end InternTradingGame
