import InternTradingGame.OrderBook.Queues
import InternTradingGame.Library.Clearing

/-!
# How trades fill two sides

A trade between a buy order and a sell order takes its quantity from both,
whoever makes it.  What orders have been filled since some heap is a filling
of two sides, and a trade between a best order of each side keeps it fair.
-/

namespace InternTradingGame

open Clearing

/-! ## Limits -/

namespace Order.IsLimitOrder

variable {order : Order}

theorem price_eq (isLimit : order.IsLimitOrder) :
    order.price = some order.limit := by
  rcases (Order.isLimitOrder_iff order).mp isLimit with ⟨limit, priced⟩
  rw [Order.limit, priced]
  rfl

theorem limit_positive (isLimit : order.IsLimitOrder) :
    0 < order.limit :=
  order.price_positive _ isLimit.price_eq

end Order.IsLimitOrder

/-! ## What has been filled -/

/-- What an order has been filled since a heap. -/
def filledSince (base now : Heap) (order : Order) : ℚ :=
  base.remaining order - now.remaining order

/-- What has been traded at the prices of a kind. -/
def volumeOf (trades : List Trade) (keep : ℚ → Bool) : ℚ :=
  totalOf Trade.quantity (fun trade => keep trade.price) trades

/-- The orders of a list which are not filled. -/
def unfilledIn (heap : Heap) (orders : List Order) : List Order :=
  orders.filter fun order => ¬ order.IsFilled heap

theorem mem_unfilledIn {order : Order} {heap : Heap}
    {orders : List Order} :
    order ∈ unfilledIn heap orders ↔
      order ∈ orders ∧ ¬ order.IsFilled heap := by
  rw [unfilledIn, List.mem_filter, decide_eq_true_eq]

/-- What rests at a price, with the limits of the orders. -/
theorem remainingAt_eq_totalOf {state : BookState}
    (invariant : BookInv state) (side : OrderSide) (price : ℚ) :
    remainingAt state.heap (state.book.restingOn side) price =
      totalOf state.heap.remaining (fun order => order.limit = price)
        (state.book.restingOn side) := by
  rw [remainingAt, totalOf]
  congr 2
  apply List.filter_congr
  intro order member
  rcases OrderBook.mem_restingOn_iff.mp member with
    ⟨level, levelMember, inLevel⟩
  have priced := (invariant.shape.side side).ownPrice level levelMember
    order inLevel
  apply decide_eq_decide.mpr
  rw [Order.limit, priced]
  exact Option.some_inj

/-- Filled orders which have nothing do not count. -/
theorem totalOf_unfilledIn {heap : Heap} {amount : Order → ℚ}
    {keep : Order → Bool} {orders : List Order}
    (none : ∀ order ∈ orders, order.IsFilled heap → amount order = 0) :
    totalOf amount keep (unfilledIn heap orders) =
      totalOf amount keep orders := by
  induction orders with
  | nil => rfl
  | cons order rest induction =>
      have tail := induction fun other member =>
        none other (List.mem_cons_of_mem _ member)
      by_cases filled : order.IsFilled heap
      · rw [unfilledIn, List.filter_cons_of_neg (by simpa using filled),
          totalOf_cons, none order List.mem_cons_self filled, ite_self,
          zero_add]
        exact tail
      · rw [unfilledIn, List.filter_cons_of_pos (by simpa using filled),
          totalOf_cons, totalOf_cons]
        exact congrArg _ tail

theorem filled_iff {base now : Heap} {order : Order} :
    filledSince base now order = base.remaining order ↔
      order.IsFilled now :=
  sub_eq_self

theorem orderId_apart {bids asks : List Order}
    (distinct : ((bids ++ asks).map Order.orderId).Nodup)
    {bid ask : Order} (bidMember : bid ∈ bids) (askMember : ask ∈ asks) :
    bid.orderId ≠ ask.orderId := by
  rw [List.map_append] at distinct
  exact (List.nodup_append.mp distinct).2.2 _
    (List.mem_map_of_mem bidMember) _ (List.mem_map_of_mem askMember)

theorem orderId_ne {orders : List Order}
    (distinct : (orders.map Order.orderId).Nodup) {first second : Order}
    (firstMember : first ∈ orders) (secondMember : second ∈ orders)
    (different : first ≠ second) : first.orderId ≠ second.orderId :=
  fun equal => different
    (List.inj_on_of_nodup_map distinct firstMember secondMember equal)

/-! ## One trade -/

/-- The trade takes its quantity from both of its orders. -/
structure Settles (trade : Trade) (first second : Order)
    (before after : Heap) : Prop where
  recorded : after.trades = before.trades ++ [trade]
  remaining : ∀ order,
    after.remaining order =
      before.remaining order -
        if order.orderId = first.orderId ∨
            order.orderId = second.orderId then
          trade.quantity
        else
          0

namespace Settles

variable {trade : Trade} {first second order : Order}
  {base before after : Heap} {orders : List Order}

theorem unchanged (settles : Settles trade first second before after)
    (notFirst : order.orderId ≠ first.orderId)
    (notSecond : order.orderId ≠ second.orderId) :
    after.remaining order = before.remaining order := by
  rw [settles.remaining, if_neg (not_or.mpr ⟨notFirst, notSecond⟩),
    sub_zero]

/-- A list which has one of the two orders grows by the trade. -/
theorem grows (settles : Settles trade first second before after)
    (distinct : orders.Nodup) (member : order ∈ orders)
    (isOrder : order.orderId = first.orderId ∨
      order.orderId = second.orderId)
    (others : ∀ other ∈ orders, other ≠ order →
      other.orderId ≠ first.orderId ∧ other.orderId ≠ second.orderId) :
    Grows orders order trade.quantity (filledSince base before)
      (filledSince base after) := by
  constructor
  · exact distinct
  · exact member
  · rw [filledSince, filledSince, settles.remaining, if_pos isOrder]
    abel
  · intro other otherMember different
    rcases others other otherMember different with ⟨notFirst, notSecond⟩
    rw [filledSince, filledSince, settles.unchanged notFirst notSecond]

/-- A trade between a best order of each side keeps a filling fair. -/
theorem fair {P : Type*} [LinearOrder P] {price : Order → P}
    {bids asks : List Order} {bid ask : Order}
    (settles : Settles trade bid ask before after)
    (fair : Fair price base.remaining (filledSince base before) bids asks)
    (distinct : ((bids ++ asks).map Order.orderId).Nodup)
    (bidMember : bid ∈ bids) (askMember : ask ∈ asks)
    (bidEnough : trade.quantity ≤ before.remaining bid)
    (askEnough : trade.quantity ≤ before.remaining ask)
    (crosses : price ask ≤ price bid)
    (betterBids : ∀ other ∈ bids, price bid < price other →
      other.IsFilled before)
    (betterAsks : ∀ other ∈ asks, price other < price ask →
      other.IsFilled before) :
    Fair price base.remaining (filledSince base after) bids asks := by
  have nodup : (bids ++ asks).Nodup := List.Nodup.of_map _ distinct
  have bidIds : (bids.map Order.orderId).Nodup :=
    distinct.sublist ((List.sublist_append_left _ _).map _)
  have askIds : (asks.map Order.orderId).Nodup :=
    distinct.sublist ((List.sublist_append_right _ _).map _)
  have bidGrows : Grows bids bid trade.quantity
      (filledSince base before) (filledSince base after) :=
    settles.grows (nodup.sublist (List.sublist_append_left _ _))
      bidMember (Or.inl rfl)
      fun other member different =>
        ⟨orderId_ne bidIds member bidMember different,
          orderId_apart distinct member askMember⟩
  have askGrows : Grows asks ask trade.quantity
      (filledSince base before) (filledSince base after) :=
    settles.grows (nodup.sublist (List.sublist_append_right _ _))
      askMember (Or.inr rfl)
      fun other member different =>
        ⟨(orderId_apart distinct bidMember member).symm,
          orderId_ne askIds member askMember different⟩
  have room : ∀ order, trade.quantity ≤ before.remaining order →
      filledSince base before order + trade.quantity ≤
        base.remaining order := by
    intro order enough
    rw [filledSince]
    linarith
  exact fair.trade bidGrows askGrows trade.quantity_positive
    (room bid bidEnough) (room ask askEnough) crosses
    (fun other member better =>
      filled_iff.mpr (betterBids other member better))
    (fun other member better =>
      filled_iff.mpr (betterAsks other member better))

/-- An order which is in neither list keeps what it has left. -/
theorem others {bids asks : List Order} {bid ask : Order}
    (settles : Settles trade bid ask before after)
    (bidMember : bid ∈ bids) (askMember : ask ∈ asks)
    (outside : order.orderId ∉ (bids ++ asks).map Order.orderId) :
    after.remaining order = before.remaining order := by
  apply settles.unchanged
  · intro same
    rw [same] at outside
    exact outside
      (List.mem_map_of_mem (List.mem_append_left _ bidMember))
  · intro same
    rw [same] at outside
    exact outside
      (List.mem_map_of_mem (List.mem_append_right _ askMember))

end Settles

/-- What a fair filling has taken, and what it has left. -/
theorem fair_bounds {P : Type*} [LinearOrder P] {price : Order → P}
    {base now : Heap} {bids asks : List Order} {order : Order}
    (fair : Fair price base.remaining (filledSince base now) bids asks)
    (member : order ∈ bids ++ asks) :
    0 ≤ filledSince base now order ∧ 0 ≤ now.remaining order := by
  have both : 0 ≤ filledSince base now order ∧
      filledSince base now order ≤ base.remaining order := by
    rcases List.mem_append.mp member with inBids | inAsks
    · exact ⟨fair.buying.nonnegative order inBids,
        fair.buying.bounded order inBids⟩
    · exact ⟨fair.selling.nonnegative order inAsks,
        fair.selling.bounded order inAsks⟩
  exact ⟨both.1, (sub_le_self_iff _).mp both.2⟩

/-! ## Fair fillings -/

/-- Since a heap two sides have been filled fairly, and nobody else. -/
structure FilledFairly (base : Heap) (price : Order → ℚ)
    (bids asks : List Order) (now : Heap) : Prop where
  fair : Fair price base.remaining (filledSince base now) bids asks
  others : ∀ order,
    order.orderId ∉ (bids ++ asks).map Order.orderId →
      now.remaining order = base.remaining order
  trades : ∃ made, now.trades = base.trades ++ made ∧
    ∀ keep, volumeOf made keep =
      totalOf (filledSince base now) (fun order => keep order.limit) asks

namespace FilledFairly

variable {base now after : Heap} {price : Order → ℚ}
  {bids asks : List Order} {bid ask order : Order} {trade : Trade}

theorem start
    (nonnegative : ∀ order ∈ bids ++ asks, 0 ≤ base.remaining order) :
    FilledFairly base price bids asks base := by
  have none : ∀ order, filledSince base base order = 0 :=
    fun _ => sub_self _
  constructor
  · exact Fair.start nonnegative fun order _ => none order
  · exact fun _ _ => rfl
  · refine ⟨[], (List.append_nil _).symm, ?_⟩
    intro keep
    have zero : totalOf (filledSince base base)
        (fun order => keep order.limit) asks = 0 := by
      apply List.sum_eq_zero
      intro value member
      rcases List.mem_map.mp member with ⟨order, _, rfl⟩
      exact none order
    exact zero.symm

/-- An order which takes no part keeps what it has left. -/
theorem unchanged (filled : FilledFairly base price bids asks now)
    (apart : ∀ other ∈ bids ++ asks, order.orderId ≠ other.orderId) :
    now.remaining order = base.remaining order := by
  apply filled.others
  intro inSides
  rcases List.mem_map.mp inSides with ⟨other, member, equal⟩
  exact apart other member equal.symm

theorem bounds (filled : FilledFairly base price bids asks now)
    (member : order ∈ bids ++ asks) :
    0 ≤ filledSince base now order ∧ 0 ≤ now.remaining order :=
  fair_bounds filled.fair member

theorem lt_of_unfilled (filled : FilledFairly base price bids asks now)
    (member : order ∈ bids ++ asks) (unfilled : ¬ order.IsFilled now) :
    filledSince base now order < base.remaining order :=
  sub_lt_self _
    (lt_of_le_of_ne (filled.bounds member).2 (Ne.symm unfilled))

/-- What is left of an order is still a whole part of its quantity. -/
theorem fillable (filled : FilledFairly base price bids asks now)
    (member : order ∈ bids ++ asks) (before : order.Fillable base)
    (whole : Whole (now.remaining order)) : order.Fillable now := by
  rcases filled.bounds member with ⟨nonnegative, remains⟩
  constructor
  · exact remains
  · exact (sub_nonneg.mp nonnegative).trans before.bounded
  · exact whole

/-- An order which was filled before stays filled. -/
theorem stays_filled (filled : FilledFairly base price bids asks now)
    (member : order ∈ bids ++ asks) (before : order.IsFilled base) :
    order.IsFilled now := by
  rcases filled.bounds member with ⟨nonnegative, remains⟩
  rw [filledSince, show base.remaining order = 0 from before,
    zero_sub, neg_nonneg] at nonnegative
  exact le_antisymm nonnegative remains

theorem unfilled_before (filled : FilledFairly base price bids asks now)
    (member : order ∈ bids ++ asks) (unfilled : ¬ order.IsFilled now) :
    ¬ order.IsFilled base :=
  fun before => unfilled (filled.stays_filled member before)

/-- A trade between a best bid and a best ask keeps the filling fair. -/
theorem step (filled : FilledFairly base price bids asks now)
    (distinct : ((bids ++ asks).map Order.orderId).Nodup)
    (settles : Settles trade bid ask now after)
    (bidMember : bid ∈ bids) (askMember : ask ∈ asks)
    (bidEnough : trade.quantity ≤ now.remaining bid)
    (askEnough : trade.quantity ≤ now.remaining ask)
    (crosses : price ask ≤ price bid)
    (betterBids : ∀ other ∈ bids, price bid < price other →
      other.IsFilled now)
    (betterAsks : ∀ other ∈ asks, price other < price ask →
      other.IsFilled now)
    (atLimit : trade.price = ask.limit) :
    FilledFairly base price bids asks after := by
  have askIds : (asks.map Order.orderId).Nodup :=
    distinct.sublist ((List.sublist_append_right _ _).map _)
  have askGrows : Grows asks ask trade.quantity (filledSince base now)
      (filledSince base after) :=
    settles.grows (List.Nodup.of_map _ askIds) askMember (Or.inr rfl)
      fun other member different =>
        ⟨(orderId_apart distinct bidMember member).symm,
          orderId_ne askIds member askMember different⟩
  constructor
  · exact settles.fair filled.fair distinct bidMember askMember bidEnough
      askEnough crosses betterBids betterAsks
  · intro other outside
    rw [settles.others bidMember askMember outside]
    exact filled.others other outside
  · rcases filled.trades with ⟨made, recorded, volumes⟩
    refine ⟨made ++ [trade], ?_, ?_⟩
    · rw [settles.recorded, recorded, List.append_assoc]
    · intro keep
      rw [askGrows.total, ← volumes, ← atLimit, volumeOf, totalOf_append,
        totalOf_cons, totalOf_nil, add_zero]
      rfl

end FilledFairly

end InternTradingGame
