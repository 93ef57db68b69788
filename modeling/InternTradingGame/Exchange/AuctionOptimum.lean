import InternTradingGame.Exchange.AuctionPricing
import Mathlib.Data.Real.Basic
import Mathlib.Data.Rat.Cast.Order
import Mathlib.Tactic.Linarith

/-!
# The auction price among all prices

The strategy looks at limits only, and its price may be the middle of two
limits.  Demand falls and supply rises with the price, and both change at
limits only.  Hence no real price has a greater volume, and the middle of
two optimal limits has the same volume as they.
-/

namespace InternTradingGame

open Clearing

namespace MaximumVolumePricingStrategy

section Optimum

variable {bids asks : List Order}

/-- What the orders would trade at a real price. -/
noncomputable def realVolumeAt (bids asks : List Order) (price : ℝ) : ℚ :=
  volumeAt (fun order => (order.limit : ℝ)) Order.quantity bids asks price

/-- The limit is in the crossing range and has the greatest volume. -/
structure OptimalPrice (bids asks : List Order) (price : ℚ) : Prop where
  crossing : CrossingPrice bids asks price
  greatest : IsGreatest (Set.range (realVolumeAt bids asks))
    (realVolumeAt bids asks price)

/-- The result has the greatest volume of all prices. -/
structure ClearsTheMost (bids asks : List Order)
    (result : AuctionClearingResult) : Prop where
  positive : 0 < result.maxVolume
  greatest : IsGreatest (Set.range (realVolumeAt bids asks))
    result.maxVolume
  attained : realVolumeAt bids asks result.clearingPrice =
    result.maxVolume
  lowestAsk : ∃ ask ∈ asks, (∀ other ∈ asks, ask.limit ≤ other.limit) ∧
    ask.limit ≤ result.clearingPrice
  highestBid : ∃ bid ∈ bids, (∀ other ∈ bids, other.limit ≤ bid.limit) ∧
    result.clearingPrice ≤ bid.limit
  range : ∀ lowest highest,
    result.priceRange = some (lowest, highest) →
      IsLeast { price | OptimalPrice bids asks price } lowest ∧
        IsGreatest { price | OptimalPrice bids asks price } highest
  single : result.priceRange = none ↔
    ∃! price, OptimalPrice bids asks price

theorem realVolumeAt_eq (price : ℚ) :
    realVolumeAt bids asks price =
      volumeAt Order.limit Order.quantity bids asks price :=
  volumeAt_embedding (Rat.castOrderEmbedding (K := ℝ)) price

theorem quantities_nonnegative (orders : List Order) :
    ∀ order ∈ orders, 0 ≤ order.quantity :=
  fun order _ => order.quantity_positive.le

theorem exists_lowest {orders : List Order} {order : Order}
    (member : order ∈ orders) :
    ∃ lowest ∈ orders, ∀ other ∈ orders, lowest.limit ≤ other.limit := by
  cases least : List.argmin Order.limit orders with
  | none =>
      rw [List.argmin_eq_none.mp least] at member
      cases member
  | some lowest =>
      exact ⟨lowest, List.argmin_mem least,
        fun _ other => List.le_of_mem_argmin other least⟩

theorem exists_highest {orders : List Order} {order : Order}
    (member : order ∈ orders) :
    ∃ highest ∈ orders, ∀ other ∈ orders,
      other.limit ≤ highest.limit := by
  cases greatest : List.argmax Order.limit orders with
  | none =>
      rw [List.argmax_eq_none.mp greatest] at member
      cases member
  | some highest =>
      exact ⟨highest, List.argmax_mem greatest,
        fun _ other => List.le_of_mem_argmax other greatest⟩

/-- No real price has more volume than the optimal limits. -/
theorem OptimalPrices.realVolumeAt_le {optimal : List ℚ} {volume : ℤ}
    (isOptimal : OptimalPrices bids asks optimal volume) (price : ℝ) :
    realVolumeAt bids asks price ≤ volume := by
  rcases exists_ask_volumeAt (quantities_nonnegative bids) price with
    nothing | ⟨bid, bidMember, ask, askMember, meet, clears⟩
  · exact nothing.trans (Int.cast_nonneg_iff.mpr isOptimal.positive.le)
  · have crossing := crossingPrice_of_ask bidMember askMember
      (Rat.cast_le.mp meet)
    calc
      realVolumeAt bids asks price ≤
          realVolumeAt bids asks ask.limit := clears
      _ = volumeAt Order.limit Order.quantity bids asks ask.limit :=
        realVolumeAt_eq ask.limit
      _ ≤ volume := isOptimal.greatest _ crossing

/-- The volume of the optimal limits is the greatest of all. -/
theorem OptimalPrices.isGreatest {optimal : List ℚ} {volume : ℤ}
    (isOptimal : OptimalPrices bids asks optimal volume) :
    IsGreatest (Set.range (realVolumeAt bids asks)) volume := by
  constructor
  · rcases List.exists_mem_of_ne_nil _ isOptimal.exist with ⟨price, member⟩
    refine ⟨price, ?_⟩
    rw [realVolumeAt_eq]
    exact ((isOptimal.mem_iff price).mp member).2
  · rintro _ ⟨price, rfl⟩
    exact isOptimal.realVolumeAt_le price

/-- The list of the strategy holds the optimal prices. -/
theorem OptimalPrices.mem_iff_optimalPrice {optimal : List ℚ}
    {volume : ℤ} (isOptimal : OptimalPrices bids asks optimal volume)
    (price : ℚ) :
    price ∈ optimal ↔ OptimalPrice bids asks price := by
  rw [isOptimal.mem_iff]
  constructor
  · rintro ⟨crossing, attains⟩
    refine ⟨crossing, ?_⟩
    rw [realVolumeAt_eq, attains]
    exact isOptimal.isGreatest
  · rintro ⟨crossing, greatest⟩
    refine ⟨crossing, ?_⟩
    rw [← realVolumeAt_eq]
    exact greatest.unique isOptimal.isGreatest

/-- Several distinct prices are not a single one. -/
theorem OptimalPrices.not_several_iff {optimal : List ℚ}
    {volume : ℤ} (isOptimal : OptimalPrices bids asks optimal volume) :
    ¬ optimal.length > 1 ↔ ∃! price, OptimalPrice bids asks price := by
  have mem_iff := isOptimal.mem_iff_optimalPrice
  match optimal, isOptimal.exist, isOptimal.distinct with
  | [price], _, _ =>
      refine iff_of_true (lt_irrefl 1) ⟨price, ?_, ?_⟩
      · exact (mem_iff price).mp List.mem_cons_self
      · intro other isBest
        exact List.mem_singleton.mp ((mem_iff other).mpr isBest)
  | first :: second :: rest, _, distinct =>
      refine iff_of_false (fun short => short (by simp)) ?_
      rintro ⟨price, _, unique⟩
      have same : first = second :=
        (unique first ((mem_iff first).mp List.mem_cons_self)).trans
          (unique second ((mem_iff second).mp
            (List.mem_cons_of_mem _ List.mem_cons_self))).symm
      exact (List.nodup_cons.mp distinct).1
        (same ▸ List.mem_cons_self)

theorem middle_between {lowest highest : ℚ} (ordered : lowest ≤ highest) :
    lowest ≤ (lowest + highest) / 2 ∧
      (lowest + highest) / 2 ≤ highest := by
  constructor
  · linarith
  · linarith

/-- The price between two optimal limits. -/
theorem OptimalPrices.middle {optimal : List ℚ} {volume : ℤ}
    (isOptimal : OptimalPrices bids asks optimal volume)
    {lowest highest : ℚ} (lowestMember : lowest ∈ optimal)
    (highestMember : highest ∈ optimal) (ordered : lowest ≤ highest) :
    realVolumeAt bids asks ((lowest + highest) / 2 : ℚ) = volume := by
  have atLowest := ((isOptimal.mem_iff lowest).mp lowestMember).2
  have atHighest := ((isOptimal.mem_iff highest).mp highestMember).2
  apply le_antisymm (isOptimal.realVolumeAt_le _)
  rw [realVolumeAt_eq]
  exact le_volumeAt_between (quantities_nonnegative bids)
    (quantities_nonnegative asks)
    (middle_between ordered).1 (middle_between ordered).2
    atLowest.ge atHighest.ge

/-- The clearing price is the middle of the optimal limits. -/
theorem OptimalPrices.clearsTheMost {optimal : List ℚ} {volume : ℤ}
    (isOptimal : OptimalPrices bids asks optimal volume)
    {lowest highest : ℚ} (lowestMember : lowest ∈ optimal)
    (highestMember : highest ∈ optimal)
    (between : ∀ price ∈ optimal, lowest ≤ price ∧ price ≤ highest) :
    ClearsTheMost bids asks {
      clearingPrice := (lowest + highest) / 2
      maxVolume := volume
      algorithm := "maximum_volume"
      priceRange :=
        if optimal.length > 1 then
          some (lowest, highest)
        else
          none } := by
  have mem_iff := isOptimal.mem_iff_optimalPrice
  have ordered : lowest ≤ highest := (between lowest lowestMember).2
  have isLeast :
      IsLeast { price | OptimalPrice bids asks price } lowest :=
    ⟨(mem_iff lowest).mp lowestMember, fun price isBest =>
      (between price ((mem_iff price).mpr isBest)).1⟩
  have isGreatest :
      IsGreatest { price | OptimalPrice bids asks price } highest :=
    ⟨(mem_iff highest).mp highestMember, fun price isBest =>
      (between price ((mem_iff price).mpr isBest)).2⟩
  constructor
  · exact isOptimal.positive
  · exact isOptimal.isGreatest
  · exact isOptimal.middle lowestMember highestMember ordered
  · rcases isLeast.1.crossing.aboveAsk with ⟨seller, selling, above⟩
    rcases exists_lowest selling with ⟨ask, member, isLowest⟩
    exact ⟨ask, member, isLowest,
      ((isLowest seller selling).trans above).trans
        (middle_between ordered).1⟩
  · rcases isGreatest.1.crossing.belowBid with ⟨buyer, buying, below⟩
    rcases exists_highest buying with ⟨bid, member, isHighest⟩
    exact ⟨bid, member, isHighest,
      (middle_between ordered).2.trans
        (below.trans (isHighest buyer buying))⟩
  · intro low high ranged
    split_ifs at ranged
    rcases Prod.mk.inj (Option.some.inj ranged) with ⟨rfl, rfl⟩
    exact ⟨isLeast, isGreatest⟩
  · rw [← isOptimal.not_several_iff]
    split_ifs with several
    · exact iff_of_false (fun none => nomatch none)
        (not_not.mpr several)
    · exact iff_of_true rfl several

end Optimum

/--
The result of the strategy has the greatest volume of all real prices where
some bid meets an ask, and is the empty one elsewhere.
-/
theorem calculateClearingPrice_optimal {bids asks : List Order}
    (bidLimits : WholeLimits bids) (askLimits : WholeLimits asks) :
    ∃ result, calculateClearingPrice bids asks = .ok result ∧
      (SidesMeet bids asks → ClearsTheMost bids asks result) ∧
      (¬ SidesMeet bids asks → result = noTrade) := by
  by_cases crosses : SidesMeet bids asks
  · rcases calculateClearingPrice_of_crosses bidLimits askLimits crosses with
      ⟨optimal, maxVolume, isOptimal, equal⟩
    rcases exists_clearingResult isOptimal.exist
        (fun price member =>
          ((isOptimal.mem_iff price).mp member).1.positive askLimits)
        isOptimal.positive with
      ⟨lowest, lowestMember, highest, highestMember, between, result⟩
    refine ⟨_, equal.trans result, ?_, ?_⟩
    · intro _
      exact isOptimal.clearsTheMost lowestMember highestMember between
    · exact fun apart => absurd crosses apart
  · refine ⟨noTrade,
      calculateClearingPrice_of_apart bidLimits askLimits crosses, ?_,
      fun _ => rfl⟩
    exact fun meet => absurd meet crosses

/-- Four of ten contracts, at the middle of 5.00 and 6.00. -/
theorem calculateClearingPrice_fourOfTen :
    ∃ result, calculateClearingPrice [Sample.buyFour] [Sample.sellTen] =
        .ok result ∧
      result.clearingPrice = 11 / 2 ∧
      ClearsTheMost [Sample.buyFour] [Sample.sellTen] result := by
  have buying : ∀ order ∈ [Sample.buyFour],
      order.IsLimitOrder ∧ Whole order.quantity := by
    decide +kernel
  have selling : ∀ order ∈ [Sample.sellTen],
      order.IsLimitOrder ∧ Whole order.quantity := by
    decide +kernel
  rcases calculateClearingPrice_optimal buying selling with
    ⟨result, returned, clears, _⟩
  have priced :
      calculateClearingPrice [Sample.buyFour] [Sample.sellTen] =
        .ok
          { clearingPrice := 11 / 2
            maxVolume := 4
            algorithm := "maximum_volume"
            priceRange := some (5, 6) } := by
    decide +kernel
  have crosses : SidesMeet [Sample.buyFour] [Sample.sellTen] :=
    ⟨_, List.mem_cons_self, _, List.mem_cons_self, by decide +kernel⟩
  refine ⟨result, returned, ?_, clears crosses⟩
  rcases Except.ok.inj (returned.symm.trans priced) with rfl
  rfl

end MaximumVolumePricingStrategy

end InternTradingGame
