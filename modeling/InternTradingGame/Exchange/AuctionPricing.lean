import InternTradingGame.OrderBook.Filling
import Mathlib.Data.List.Dedup

/-!
# The maximum-volume price of an auction

The strategy looks at every limit inside the crossing range, computes what
could be traded at it, and takes the middle of the prices with the greatest
volume.  It never meets the batch engine, which pairs the orders itself.

For limit orders with whole quantities the strategy returns the volume of
some price, and no crossing ask has a price with a greater volume.
-/

namespace InternTradingGame

open Clearing

/-- What a pricing strategy returns. -/
structure AuctionClearingResult where
  clearingPrice : ℚ
  maxVolume : ℤ
  algorithm : String
  priceRange : Option (ℚ × ℚ)
deriving DecidableEq

namespace MaximumVolumePricingStrategy

/-! ## The strategy -/

/-- The result when nothing can be traded. -/
def noTrade : AuctionClearingResult where
  clearingPrice := 0
  maxVolume := 0
  algorithm := "maximum_volume"
  priceRange := none

/-- The quantity of the limit orders whose price is eligible. -/
def eligibleVolume (orders : List Order) (eligible : ℚ → Bool) : ℚ :=
  ((orders.filter fun order => order.price.any eligible).map
    Order.quantity).sum

/-- `_calculate_volume_at_price`. -/
def calculateVolumeAtPrice (bids asks : List Order) (price : ℚ) : ℤ :=
  truncate
    (min (eligibleVolume bids fun limit => price ≤ limit)
      (eligibleVolume asks fun limit => limit ≤ price))

/-- The lowest ask and the highest bid, when they meet. -/
def findCrossingRange (bids asks : List Order) :
    Except PyError (Option (ℚ × ℚ)) :=
  match (bids.filterMap Order.price).max? with
  | none => .error (.valueError "max() arg is an empty sequence")
  | some maxBid =>
      match (asks.filterMap Order.price).min? with
      | none => .error (.valueError "min() arg is an empty sequence")
      | some minAsk =>
          .ok (if maxBid < minAsk then none else some (minAsk, maxBid))

/-- The set of limits in the crossing range. -/
def collectCrossingPrices (bids asks : List Order) (minAsk maxBid : ℚ) :
    List ℚ :=
  (((bids ++ asks).filterMap Order.price).filter fun price =>
    minAsk ≤ price ∧ price ≤ maxBid).dedup

/-- The prices with the greatest volume, and that volume. -/
def findOptimalPrices (bids asks : List Order) (prices : List ℚ) :
    Option (List ℚ × ℤ) :=
  match (prices.map (calculateVolumeAtPrice bids asks)).max? with
  | none => none
  | some maxVolume =>
      if maxVolume = 0 then
        none
      else
        some
          (prices.filter fun price =>
            calculateVolumeAtPrice bids asks price = maxVolume,
          maxVolume)

/-- The least and the greatest of some prices. -/
def priceBounds (prices : List ℚ) : Except PyError (ℚ × ℚ) :=
  match prices.min? with
  | none => .error (.valueError "min() arg is an empty sequence")
  | some lowest =>
      match prices.max? with
      | none => .error (.valueError "max() arg is an empty sequence")
      | some highest => .ok (lowest, highest)

/-- A single optimal price, or else the middle of them. -/
def selectClearingPrice (optimalPrices : List ℚ) : Except PyError ℚ :=
  match optimalPrices with
  | [price] => .ok price
  | _ => do
      let bounds ← priceBounds optimalPrices
      return (bounds.1 + bounds.2) / 2

/-- The range of the optimal prices, if there are several. -/
def optimalRange (optimalPrices : List ℚ) :
    Except PyError (Option (ℚ × ℚ)) :=
  if optimalPrices.length > 1 then
    some <$> priceBounds optimalPrices
  else
    return none

/-- The checks at the end, and the result. -/
def clearingResult (optimalPrices : List ℚ) (maxVolume : ℤ) :
    Except PyError AuctionClearingResult := do
  let clearingPrice ← selectClearingPrice optimalPrices
  if clearingPrice ≤ 0 then
    throw (.assertionError
      "Clearing price must be positive when trades occur")
  else if maxVolume ≤ 0 then
    throw (.assertionError
      "Max volume must be positive when trades occur")
  else do
    let priceRange ← optimalRange optimalPrices
    return {
      clearingPrice, maxVolume
      algorithm := "maximum_volume"
      priceRange }

/-- `calculate_clearing_price`. -/
def calculateClearingPrice (bids asks : List Order) :
    Except PyError AuctionClearingResult :=
  if bids = [] ∨ asks = [] then
    return noTrade
  else do
    match ← findCrossingRange bids asks with
    | none => return noTrade
    | some (minAsk, maxBid) =>
        match findOptimalPrices bids asks
            (collectCrossingPrices bids asks minAsk maxBid) with
        | none => return noTrade
        | some (optimalPrices, maxVolume) =>
            clearingResult optimalPrices maxVolume

/-! ## Volumes of limit orders -/

section Volumes

variable {orders bids asks : List Order}

/-- Limit orders with whole quantities. -/
def WholeLimits (orders : List Order) : Prop :=
  ∀ order ∈ orders, order.IsLimitOrder ∧ Whole order.quantity

theorem WholeLimits.append (left : WholeLimits bids)
    (right : WholeLimits asks) : WholeLimits (bids ++ asks) := by
  intro order member
  rcases List.mem_append.mp member with inLeft | inRight
  · exact left order inLeft
  · exact right order inRight

theorem prices_eq (limits : WholeLimits orders) :
    orders.filterMap Order.price = orders.map Order.limit := by
  induction orders with
  | nil => rfl
  | cons order rest induction =>
      rw [List.filterMap_cons_some
          (limits order List.mem_cons_self).1.price_eq,
        induction fun other member =>
          limits other (List.mem_cons_of_mem _ member)]
      rfl

theorem eligibleVolume_eq (limits : WholeLimits orders)
    (eligible : ℚ → Bool) :
    eligibleVolume orders eligible =
      totalOf Order.quantity (fun order => eligible order.limit)
        orders := by
  rw [eligibleVolume, totalOf]
  congr 2
  apply List.filter_congr
  intro order member
  rw [(limits order member).1.price_eq]
  rfl

theorem whole_eligibleVolume (limits : WholeLimits orders)
    (eligible : ℚ → Bool) : Whole (eligibleVolume orders eligible) := by
  apply Whole.sum
  intro quantity member
  rcases List.mem_map.mp member with ⟨order, inFilter, rfl⟩
  exact (limits order (List.mem_filter.mp inFilter).1).2

/-- With whole quantities nothing is truncated. -/
theorem calculateVolumeAtPrice_eq (bidLimits : WholeLimits bids)
    (askLimits : WholeLimits asks) (price : ℚ) :
    (calculateVolumeAtPrice bids asks price : ℚ) =
      volumeAt Order.limit Order.quantity bids asks price := by
  rw [calculateVolumeAtPrice,
    truncate_whole ((whole_eligibleVolume bidLimits _).min
      (whole_eligibleVolume askLimits _)),
    eligibleVolume_eq bidLimits, eligibleVolume_eq askLimits]
  rfl

theorem volumeAt_nonneg (price : ℚ) :
    0 ≤ volumeAt Order.limit Order.quantity bids asks price := by
  have nonnegative : ∀ (orders : List Order) (keep : Order → Bool),
      0 ≤ totalOf Order.quantity keep orders := by
    intro orders keep
    apply List.sum_nonneg
    intro quantity member
    rcases List.mem_map.mp member with ⟨order, _, rfl⟩
    exact order.quantity_positive.le
  exact le_min (nonnegative bids _) (nonnegative asks _)

end Volumes

/-! ## What the strategy returns -/

section Returns

variable {bids asks : List Order} {prices : List ℚ}

/-- The least and the greatest of some prices are among them. -/
theorem exists_priceBounds (some_ : prices ≠ []) :
    ∃ lowest ∈ prices, ∃ highest ∈ prices,
      (∀ price ∈ prices, lowest ≤ price ∧ price ≤ highest) ∧
        priceBounds prices = .ok (lowest, highest) := by
  rcases Option.isSome_iff_exists.mp (List.isSome_min?_of_ne_nil some_) with
    ⟨lowest, isLowest⟩
  rcases Option.isSome_iff_exists.mp (List.isSome_max?_of_ne_nil some_) with
    ⟨highest, isHighest⟩
  refine ⟨lowest, List.min?_mem isLowest, highest,
    List.max?_mem isHighest, ?_, ?_⟩
  · intro price member
    exact ⟨(List.min?_eq_some_iff.mp isLowest).2 price member,
      (List.max?_eq_some_iff.mp isHighest).2 price member⟩
  · simp only [priceBounds, isLowest, isHighest]

/-- A single price is the middle of its bounds as well. -/
theorem selectClearingPrice_eq {lowest highest : ℚ}
    (lowestMember : lowest ∈ prices) (highestMember : highest ∈ prices)
    (bounds : priceBounds prices = .ok (lowest, highest)) :
    selectClearingPrice prices = .ok ((lowest + highest) / 2) := by
  match prices with
  | [] => cases lowestMember
  | [price] =>
      rw [List.mem_singleton.mp lowestMember,
        List.mem_singleton.mp highestMember, add_self_div_two]
      rfl
  | first :: second :: rest =>
      rw [selectClearingPrice, bounds]
      · rfl
      · intro price equal
        cases equal

/-- The result for some optimal prices. -/
theorem exists_clearingResult (some_ : prices ≠ [])
    (positive : ∀ price ∈ prices, 0 < price) {maxVolume : ℤ}
    (volume : 0 < maxVolume) :
    ∃ lowest ∈ prices, ∃ highest ∈ prices,
      (∀ price ∈ prices, lowest ≤ price ∧ price ≤ highest) ∧
        clearingResult prices maxVolume = .ok {
          clearingPrice := (lowest + highest) / 2
          maxVolume
          algorithm := "maximum_volume"
          priceRange :=
            if prices.length > 1 then
              some (lowest, highest)
            else
              none } := by
  rcases exists_priceBounds some_ with
    ⟨lowest, lowestMember, highest, highestMember, between, bounds⟩
  have middle : 0 < (lowest + highest) / 2 :=
    div_pos
      (add_pos (positive lowest lowestMember)
        (positive highest highestMember))
      two_pos
  have ranged : optimalRange prices =
      .ok (if prices.length > 1 then
        some (lowest, highest)
      else
        none) := by
    rw [optimalRange]
    split_ifs
    · rw [bounds]
      rfl
    · rfl
  refine ⟨lowest, lowestMember, highest, highestMember, between, ?_⟩
  rw [clearingResult,
    selectClearingPrice_eq lowestMember highestMember bounds]
  show (if (lowest + highest) / 2 ≤ 0 then _ else _) = _
  rw [if_neg (not_le.mpr middle), if_neg (not_le.mpr volume), ranged]
  rfl

/-- Some bid would pay what some ask wants. -/
def SidesMeet (bids asks : List Order) : Prop :=
  ∃ bid ∈ bids, ∃ ask ∈ asks, ask.limit ≤ bid.limit

/-- A limit between the lowest ask and the highest bid. -/
structure CrossingPrice (bids asks : List Order) (price : ℚ) : Prop where
  listed : ∃ order ∈ bids ++ asks, order.limit = price
  aboveAsk : ∃ ask ∈ asks, ask.limit ≤ price
  belowBid : ∃ bid ∈ bids, price ≤ bid.limit

/-- The crossing range reaches from the lowest ask to the highest bid. -/
theorem exists_crossingRange (bidLimits : WholeLimits bids)
    (askLimits : WholeLimits asks) (someBids : bids ≠ [])
    (someAsks : asks ≠ []) :
    ∃ ask ∈ asks, ∃ bid ∈ bids,
      (∀ other ∈ asks, ask.limit ≤ other.limit) ∧
        (∀ other ∈ bids, other.limit ≤ bid.limit) ∧
        findCrossingRange bids asks =
          .ok (if bid.limit < ask.limit then
            none
          else
            some (ask.limit, bid.limit)) := by
  have bidPrices : bids.map Order.limit ≠ [] := by
    simpa using someBids
  have askPrices : asks.map Order.limit ≠ [] := by
    simpa using someAsks
  rcases Option.isSome_iff_exists.mp (List.isSome_max?_of_ne_nil bidPrices) with
    ⟨maxBid, isMax⟩
  rcases Option.isSome_iff_exists.mp (List.isSome_min?_of_ne_nil askPrices) with
    ⟨minAsk, isMin⟩
  rcases List.mem_map.mp (List.max?_mem isMax) with ⟨bid, bidMember, rfl⟩
  rcases List.mem_map.mp (List.min?_mem isMin) with ⟨ask, askMember, rfl⟩
  refine ⟨ask, askMember, bid, bidMember, ?_, ?_, ?_⟩
  · intro other member
    exact (List.min?_eq_some_iff.mp isMin).2 _
      (List.mem_map_of_mem member)
  · intro other member
    exact (List.max?_eq_some_iff.mp isMax).2 _
      (List.mem_map_of_mem member)
  · simp only [findCrossingRange, prices_eq bidLimits,
      prices_eq askLimits, isMax, isMin]

theorem mem_collectCrossingPrices (bidLimits : WholeLimits bids)
    (askLimits : WholeLimits asks) {ask bid : Order}
    (askMember : ask ∈ asks) (bidMember : bid ∈ bids)
    (lowest : ∀ other ∈ asks, ask.limit ≤ other.limit)
    (highest : ∀ other ∈ bids, other.limit ≤ bid.limit) (price : ℚ) :
    price ∈ collectCrossingPrices bids asks ask.limit bid.limit ↔
      CrossingPrice bids asks price := by
  rw [collectCrossingPrices, List.mem_dedup, List.mem_filter,
    prices_eq (bidLimits.append askLimits), List.mem_map,
    decide_eq_true_eq]
  constructor
  · exact fun facts => ⟨facts.1, ⟨ask, askMember, facts.2.1⟩,
      ⟨bid, bidMember, facts.2.2⟩⟩
  · rintro ⟨listed, ⟨seller, selling, above⟩, ⟨buyer, buying, below⟩⟩
    exact ⟨listed, (lowest seller selling).trans above,
      below.trans (highest buyer buying)⟩

/-- Where some price has volume, all prices with the greatest are found. -/
theorem findOptimalPrices_eq {price : ℚ} (member : price ∈ prices)
    (volume : 0 < calculateVolumeAtPrice bids asks price) :
    ∃ maxVolume, 0 < maxVolume ∧
      (∀ other ∈ prices,
        calculateVolumeAtPrice bids asks other ≤ maxVolume) ∧
      (∃ other ∈ prices,
        calculateVolumeAtPrice bids asks other = maxVolume) ∧
      findOptimalPrices bids asks prices =
        some
          (prices.filter fun other =>
            calculateVolumeAtPrice bids asks other = maxVolume,
          maxVolume) := by
  have someVolumes :
      prices.map (calculateVolumeAtPrice bids asks) ≠ [] :=
    List.ne_nil_of_mem (List.mem_map_of_mem member)
  obtain ⟨maxVolume, isMax⟩ :=
    Option.isSome_iff_exists.mp (List.isSome_max?_of_ne_nil someVolumes)
  rcases List.max?_eq_some_iff.mp isMax with ⟨attained, greatest⟩
  have positive : 0 < maxVolume :=
    volume.trans_le (greatest _ (List.mem_map_of_mem member))
  refine ⟨maxVolume, positive, ?_, List.mem_map.mp attained, ?_⟩
  · exact fun other otherMember =>
      greatest _ (List.mem_map_of_mem otherMember)
  · rw [findOptimalPrices]
    simp only [isMax, if_neg positive.ne']

/-- The prices with the greatest volume among the crossing prices. -/
structure OptimalPrices (bids asks : List Order) (optimal : List ℚ)
    (volume : ℤ) : Prop where
  positive : 0 < volume
  distinct : optimal.Nodup
  exist : optimal ≠ []
  mem_iff : ∀ price, price ∈ optimal ↔
    CrossingPrice bids asks price ∧
      volumeAt Order.limit Order.quantity bids asks price = volume
  greatest : ∀ price, CrossingPrice bids asks price →
    volumeAt Order.limit Order.quantity bids asks price ≤ volume

theorem CrossingPrice.positive {price : ℚ}
    (crossing : CrossingPrice bids asks price)
    (askLimits : WholeLimits asks) : 0 < price := by
  rcases crossing.aboveAsk with ⟨ask, member, above⟩
  exact (askLimits ask member).1.limit_positive.trans_le above

theorem totalOf_pos {keep : Order → Bool} {orders : List Order}
    {order : Order} (member : order ∈ orders)
    (kept : keep order = true) :
    0 < totalOf Order.quantity keep orders := by
  have listed : order.quantity ∈
      (orders.filter keep).map Order.quantity :=
    List.mem_map_of_mem (List.mem_filter.mpr ⟨member, kept⟩)
  refine order.quantity_positive.trans_le
    (List.single_le_sum ?_ _ listed)
  intro quantity inMap
  rcases List.mem_map.mp inMap with ⟨other, _, rfl⟩
  exact other.quantity_positive.le

/-- At a crossing price something can be traded. -/
theorem CrossingPrice.volume_pos {price : ℚ}
    (crossing : CrossingPrice bids asks price) :
    0 < volumeAt Order.limit Order.quantity bids asks price := by
  rcases crossing.aboveAsk with ⟨ask, askMember, above⟩
  rcases crossing.belowBid with ⟨bid, bidMember, below⟩
  exact lt_min (totalOf_pos bidMember (decide_eq_true below))
    (totalOf_pos askMember (decide_eq_true above))

theorem crossingPrice_of_ask {bid ask : Order} (bidMember : bid ∈ bids)
    (askMember : ask ∈ asks) (crosses : ask.limit ≤ bid.limit) :
    CrossingPrice bids asks ask.limit where
  listed := ⟨ask, List.mem_append_right _ askMember, rfl⟩
  aboveAsk := ⟨ask, askMember, le_refl _⟩
  belowBid := ⟨bid, bidMember, crosses⟩

theorem calculateClearingPrice_of_empty (empty : bids = [] ∨ asks = []) :
    calculateClearingPrice bids asks = .ok noTrade := by
  rw [calculateClearingPrice, if_pos empty]
  rfl

/-- Where no bid meets an ask the result is the empty one. -/
theorem calculateClearingPrice_of_apart (bidLimits : WholeLimits bids)
    (askLimits : WholeLimits asks) (apart : ¬ SidesMeet bids asks) :
    calculateClearingPrice bids asks = .ok noTrade := by
  by_cases empty : bids = [] ∨ asks = []
  · exact calculateClearingPrice_of_empty empty
  · rcases not_or.mp empty with ⟨someBids, someAsks⟩
    rcases exists_crossingRange bidLimits askLimits someBids someAsks with
      ⟨ask, askMember, bid, bidMember, _, _, range⟩
    have below : bid.limit < ask.limit := by
      by_contra above
      exact apart ⟨bid, bidMember, ask, askMember, not_lt.mp above⟩
    rw [calculateClearingPrice, if_neg empty, range, if_pos below]
    rfl

/-- Where some bid meets an ask the result is that of the optimal prices. -/
theorem calculateClearingPrice_of_crosses (bidLimits : WholeLimits bids)
    (askLimits : WholeLimits asks) (crosses : SidesMeet bids asks) :
    ∃ optimal maxVolume, OptimalPrices bids asks optimal maxVolume ∧
      calculateClearingPrice bids asks =
        clearingResult optimal maxVolume := by
  rcases crosses with ⟨buyer, buying, seller, selling, meet⟩
  have notEmpty : ¬ (bids = [] ∨ asks = []) := by
    rintro (rfl | rfl)
    · cases buying
    · cases selling
  rcases exists_crossingRange bidLimits askLimits (List.ne_nil_of_mem buying)
      (List.ne_nil_of_mem selling) with
    ⟨ask, askMember, bid, bidMember, lowest, highest, range⟩
  have above : ¬ bid.limit < ask.limit :=
    not_lt.mpr ((lowest seller selling).trans
      (meet.trans (highest buyer buying)))
  have mem_iff := mem_collectCrossingPrices bidLimits askLimits askMember
    bidMember lowest highest
  have volumes := calculateVolumeAtPrice_eq bidLimits askLimits
  have candidate := crossingPrice_of_ask buying selling meet
  rcases findOptimalPrices_eq ((mem_iff _).mpr candidate)
      (by
        rw [← Int.cast_pos (R := ℚ), volumes]
        exact candidate.volume_pos) with
    ⟨maxVolume, positive, greatest, attained, found⟩
  have isOptimal : OptimalPrices bids asks
      ((collectCrossingPrices bids asks ask.limit bid.limit).filter
        fun other => calculateVolumeAtPrice bids asks other = maxVolume)
      maxVolume := by
    refine ⟨positive, (List.nodup_dedup _).filter _, ?_, ?_, ?_⟩
    · rcases attained with ⟨price, member, equal⟩
      exact List.ne_nil_of_mem
        (List.mem_filter.mpr ⟨member, decide_eq_true equal⟩)
    · intro price
      rw [List.mem_filter, mem_iff, decide_eq_true_eq, ← volumes,
        Int.cast_inj]
    · intro price crossing
      rw [← volumes]
      exact Int.cast_le.mpr
        (greatest price ((mem_iff price).mpr crossing))
  refine ⟨_, maxVolume, isOptimal, ?_⟩
  rw [calculateClearingPrice, if_neg notEmpty, range, if_neg above]
  show (match findOptimalPrices _ _ _ with
    | none => _
    | some (_, _) => _) = _
  rw [found]

/-- The volume of a price, which no crossing ask exceeds. -/
structure IsMaximumVolume (bids asks : List Order) (volume : ℤ) :
    Prop where
  attained : volume = 0 ∨ ∃ price,
    (volume : ℚ) = volumeAt Order.limit Order.quantity bids asks price
  crossing : ∀ bid ∈ bids, ∀ ask ∈ asks, ask.limit ≤ bid.limit →
    volumeAt Order.limit Order.quantity bids asks ask.limit ≤ volume

/-- Where no bid meets an ask the volume is zero. -/
theorem IsMaximumVolume.nothing {volume : ℤ}
    (maximum : IsMaximumVolume bids asks volume)
    (apart : ∀ bid ∈ bids, ∀ ask ∈ asks, bid.limit < ask.limit) :
    volume = 0 := by
  rcases maximum.attained with zero | ⟨price, equal⟩
  · exact zero
  · have fair : Fair Order.limit Order.quantity (fun _ => 0) bids asks :=
      Fair.start (fun order _ => order.quantity_positive.le)
        fun _ _ => rfl
    have bound := volumeAt_le fair
      (fun bid bidMember ask askMember _ _ =>
        apart bid bidMember ask askMember) price
    have none : (bids.map fun _ => (0 : ℚ)).sum = 0 := by simp
    rw [none, ← equal] at bound
    apply Int.cast_injective (α := ℚ)
    rw [Int.cast_zero]
    exact le_antisymm bound (equal ▸ volumeAt_nonneg price)

/-- The strategy never raises for limit orders with whole quantities. -/
theorem exists_calculateClearingPrice (bidLimits : WholeLimits bids)
    (askLimits : WholeLimits asks) :
    ∃ result, calculateClearingPrice bids asks = .ok result ∧
      IsMaximumVolume bids asks result.maxVolume := by
  by_cases crosses : SidesMeet bids asks
  · rcases calculateClearingPrice_of_crosses bidLimits askLimits crosses with
      ⟨optimal, maxVolume, isOptimal, equal⟩
    rcases exists_clearingResult isOptimal.exist
        (fun price member =>
          ((isOptimal.mem_iff price).mp member).1.positive askLimits)
        isOptimal.positive with
      ⟨lowest, lowestMember, _, _, _, result⟩
    refine ⟨_, equal.trans result, ?_, ?_⟩
    · exact Or.inr ⟨lowest,
        ((isOptimal.mem_iff lowest).mp lowestMember).2.symm⟩
    · intro bid bidMember ask askMember meet
      exact isOptimal.greatest _
        (crossingPrice_of_ask bidMember askMember meet)
  · refine ⟨noTrade,
      calculateClearingPrice_of_apart bidLimits askLimits crosses,
      Or.inl rfl, ?_⟩
    intro bid bidMember ask askMember meet
    exact absurd ⟨bid, bidMember, ask, askMember, meet⟩ crosses

end Returns

end MaximumVolumePricingStrategy

end InternTradingGame
