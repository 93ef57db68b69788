import InternTradingGame.Exchange.BatchResults

/-!
# Do the market orders of a batch take what there is?

The market buy orders come before the sell orders are added, so that the
limit sell orders of their own batch are out of their reach.  What each
stage of the batch clears depends on the orders alone: it is the greatest
volume which a price clears.
-/

namespace InternTradingGame

open Effects Clearing

/-! ## What the orders of an instrument clear -/

/-- What the limit sell orders which accept a price give. -/
def limitOfferedAt (orders : List Order) (price : ℚ) : ℚ :=
  totalOf Order.quantity
    (fun order => order.side = .sell ∧ order.IsLimitOrder ∧
      order.limit ≤ price) orders

/-- What the market orders of a side ask for. -/
def marketQuantity (orders : List Order) (side : OrderSide) : ℚ :=
  totalOf Order.quantity
    (fun order => order.side = side ∧ order.price = none) orders

/-- The limits of the limit sell orders. -/
def sellLimits (orders : List Order) : List ℚ :=
  (orders.filter fun order =>
    order.side = .sell ∧ order.IsLimitOrder).map Order.limit

/-- What is paired: nothing past a market sell order. -/
def pairedVolume (orders : List Order) : ℚ :=
  if ∃ sell ∈ orders, sell.side = .sell ∧ sell.price = none then
    0
  else
    greatestVolume (wantedAt orders) (limitOfferedAt orders)
      (sellLimits orders)

/-- What the limit buy orders at a price want beyond what is paired. -/
def stillWantedAt (orders : List Order) (price : ℚ) : ℚ :=
  max 0 (wantedAt orders price - pairedVolume orders)

/-- What the limit sell orders at a price give beyond what is paired. -/
def stillOfferedAt (orders : List Order) (price : ℚ) : ℚ :=
  max 0 (limitOfferedAt orders price - pairedVolume orders)

/-- What the limit buy orders take from the asks. -/
def boughtVolume (heap : Heap) (book : OrderBook) (orders : List Order) :
    ℚ :=
  greatestVolume (stillWantedAt orders)
    (supplyAt Order.limit heap.remaining (book.restingOn .sell))
    ((book.restingOn .sell).map Order.limit)

/--
Liquidity is left to market orders: the asks which are left do not suffice
for the market buy orders, and a limit sell order is left when the bids have
been met.
-/
def LeavesLiquidity (heap : Heap) (book : OrderBook)
    (orders : List Order) : Prop :=
  ((book.restingOn .sell).map heap.remaining).sum -
      boughtVolume heap book orders < marketQuantity orders .buy ∧
    ∃ sell ∈ orders, sell.side = .sell ∧ sell.IsLimitOrder ∧
      demandAt Order.limit heap.remaining (book.restingOn .buy)
            sell.limit +
          max 0 (stillWantedAt orders sell.limit -
            boughtVolume heap book orders) <
        marketQuantity orders .sell + stillOfferedAt orders sell.limit

instance (heap : Heap) (book : OrderBook) (orders : List Order) :
    Decidable (LeavesLiquidity heap book orders) :=
  inferInstanceAs (Decidable (_ ∧ ∃ sell ∈ orders, _))

/--
No market order of these is left while orders rest on the opposite side.
-/
def TakesLiquidity (orders : List Order) (state : BookState) : Prop :=
  ∀ order ∈ orders, order.price = none →
    ¬ order.IsFilled state.heap →
      state.book.restingOn order.side.opposite = []

section OneInstrument

variable {instrumentId : String} {known : String → String → Prop}
  {start paired bought served after : BookState} {queues : BatchQueues}
  {context reached : BatchContext} {early sold : List Trade}
  {order : Order} {orders : List Order}

/-! ## The orders in their groups -/

namespace QueueFacts

theorem limitOfferedAt_eq {price : ℚ}
    (facts : QueueFacts instrumentId start queues)
    (perm : orders.Perm (queues.buys ++ queues.sells)) :
    limitOfferedAt orders price =
      totalOf Order.quantity (fun sell => sell.limit ≤ price)
        queues.limitSells := by
  have split : (queues.buys ++ queues.sells).Perm
      (queues.limitSells ++ (queues.buys ++ queues.marketSells)) := by
    rw [BatchQueues.sells, ← List.append_assoc]
    exact List.perm_append_comm
  apply totalOf_group (perm.trans split)
  · intro sell member
    apply decide_eq_decide.mpr
    constructor
    · exact fun both => both.2.2
    · exact fun within =>
        ⟨facts.isSell sell (List.mem_append_right _ member),
          facts.limits sell (List.mem_append_right _ member), within⟩
  · intro other member both
    have offered := of_decide_eq_true both
    rcases List.mem_append.mp member with buy | market
    · exact facts.not_sell_of_buy buy offered.1
    · exact facts.not_limit_of_market (List.mem_append_right _ market)
        offered.2.1

theorem marketQuantity_buy (facts : QueueFacts instrumentId start queues)
    (perm : orders.Perm (queues.buys ++ queues.sells)) :
    marketQuantity orders .buy =
      totalOf Order.quantity (fun _ => true) queues.marketBuys := by
  have split : (queues.buys ++ queues.sells).Perm
      (queues.marketBuys ++ (queues.limitBuys ++ queues.sells)) := by
    rw [← List.append_assoc]
    exact List.perm_append_comm.append_right _
  apply totalOf_group (perm.trans split)
  · intro buy member
    exact decide_eq_true
      ⟨facts.isBuy buy (List.mem_append_right _ member),
        facts.noPrice buy (List.mem_append_left _ member)⟩
  · intro other member both
    have market := of_decide_eq_true both
    rcases List.mem_append.mp member with limit | sell
    · have priced :=
        (facts.limits other (List.mem_append_left _ limit)).price_eq
      rw [market.2] at priced
      cases priced
    · exact facts.not_buy_of_sell sell market.1

theorem marketQuantity_sell (facts : QueueFacts instrumentId start queues)
    (perm : orders.Perm (queues.buys ++ queues.sells)) :
    marketQuantity orders .sell =
      totalOf Order.quantity (fun _ => true) queues.marketSells := by
  have split : (queues.buys ++ queues.sells).Perm
      (queues.marketSells ++ (queues.limitSells ++ queues.buys)) := by
    rw [← List.append_assoc]
    exact List.perm_append_comm
  apply totalOf_group (perm.trans split)
  · intro sell member
    exact decide_eq_true
      ⟨facts.isSell sell (List.mem_append_left _ member),
        facts.noPrice sell (List.mem_append_right _ member)⟩
  · intro other member both
    have market := of_decide_eq_true both
    rcases List.mem_append.mp member with limit | buy
    · have priced :=
        (facts.limits other (List.mem_append_right _ limit)).price_eq
      rw [market.2] at priced
      cases priced
    · exact facts.not_sell_of_buy buy market.1

theorem mem_limitSells_iff (facts : QueueFacts instrumentId start queues)
    (perm : orders.Perm (queues.buys ++ queues.sells)) :
    order ∈ queues.limitSells ↔
      order ∈ orders ∧ order.side = .sell ∧ order.IsLimitOrder := by
  constructor
  · intro member
    have isSell : order ∈ queues.sells := List.mem_append_right _ member
    exact ⟨perm.mem_iff.mpr (List.mem_append_right _ isSell),
      facts.isSell order isSell,
      facts.limits order (List.mem_append_right _ member)⟩
  · rintro ⟨member, isSell, isLimit⟩
    rcases List.mem_append.mp (perm.mem_iff.mp member) with buy | sell
    · exact absurd isSell (facts.not_sell_of_buy buy)
    · rcases List.mem_append.mp sell with market | limit
      · exact absurd isLimit
          (facts.not_limit_of_market (List.mem_append_right _ market))
      · exact limit

/-- Whether something is paired depends on the sell orders alone. -/
theorem pairedVolume_eq (facts : QueueFacts instrumentId start queues)
    (perm : orders.Perm (queues.buys ++ queues.sells)) :
    pairedVolume orders =
      if queues.marketSells = [] then
        greatestVolume
          (demandAt Order.limit Order.quantity queues.limitBuys)
          (supplyAt Order.limit Order.quantity queues.limitSells)
          (queues.limitSells.map Order.limit)
      else
        0 := by
  have wanted : wantedAt orders =
      demandAt Order.limit Order.quantity queues.limitBuys := by
    ext price
    exact facts.wantedAt_eq perm
  have offered : limitOfferedAt orders =
      supplyAt Order.limit Order.quantity queues.limitSells := by
    ext price
    exact facts.limitOfferedAt_eq perm
  have prices : ∀ limit, limit ∈ sellLimits orders ↔
      limit ∈ queues.limitSells.map Order.limit := by
    intro limit
    rw [sellLimits, List.mem_map, List.mem_map]
    apply exists_congr
    intro sell
    rw [facts.mem_limitSells_iff perm, List.mem_filter,
      decide_eq_true_eq]
  have some_ := facts.exists_marketSell_iff perm
  split_ifs with none
  · rw [pairedVolume, if_neg (mt some_.mp (not_not.mpr none)), wanted,
      offered, greatestVolume_eq_of_mem prices]
  · rw [pairedVolume, if_pos (some_.mpr none)]

theorem demandAt_eq (facts : QueueFacts instrumentId start queues) :
    demandAt Order.limit start.heap.remaining queues.limitBuys =
      demandAt Order.limit Order.quantity queues.limitBuys := by
  ext price
  exact totalOf_congr fun order member => facts.unfilled order
    (List.mem_append_left _ (List.mem_append_left _ member))

theorem supplyAt_eq (facts : QueueFacts instrumentId start queues) :
    supplyAt Order.limit start.heap.remaining queues.limitSells =
      supplyAt Order.limit Order.quantity queues.limitSells := by
  ext price
  exact totalOf_congr fun order member => facts.unfilled order
    (List.mem_append_right _ (List.mem_append_right _ member))

end QueueFacts

/-! ## What each stage clears -/

namespace PairedLimits

variable {price : ℚ}

/-- The pairing clears the greatest volume, or nothing. -/
theorem volume (facts : QueueFacts instrumentId start queues)
    (perm : orders.Perm (queues.buys ++ queues.sells))
    (state : PairedLimits start queues paired) :
    (queues.limitBuys.map (filledSince start.heap paired.heap)).sum =
      pairedVolume orders := by
  rw [facts.pairedVolume_eq perm]
  split_ifs with none
  · rw [← facts.demandAt_eq, ← facts.supplyAt_eq]
    exact state.filled.fair.sum_eq_greatestVolume (state.exhausted none)
  · rw [state.idle none]
    apply List.sum_eq_zero
    intro value member
    rcases List.mem_map.mp member with ⟨order, _, rfl⟩
    exact sub_self _

/-- What the limit buy orders still want when they are added. -/
theorem stillWanted (facts : QueueFacts instrumentId start queues)
    (perm : orders.Perm (queues.buys ++ queues.sells))
    (state : PairedLimits start queues paired) (price : ℚ) :
    demandAt Order.limit paired.heap.remaining
        (unfilledIn paired.heap queues.limitBuys) price =
      stillWantedAt orders price := by
  have left : ∀ order ∈ queues.limitBuys, paired.heap.remaining order =
      start.heap.remaining order -
        filledSince start.heap paired.heap order :=
    fun order _ => (sub_sub_cancel _ _).symm
  calc
    demandAt Order.limit paired.heap.remaining
        (unfilledIn paired.heap queues.limitBuys) price
      = demandAt Order.limit paired.heap.remaining queues.limitBuys price :=
      totalOf_unfilledIn fun _ _ filled => filled
    _ = demandAt Order.limit
        (fun order => start.heap.remaining order -
          filledSince start.heap paired.heap order)
        queues.limitBuys price := totalOf_congr left
    _ = max 0 (demandAt Order.limit start.heap.remaining queues.limitBuys
          price -
        (queues.limitBuys.map (filledSince start.heap paired.heap)).sum) :=
      state.filled.fair.left_demand price
    _ = stillWantedAt orders price := by
      rw [state.volume facts perm, facts.demandAt_eq, stillWantedAt,
        facts.wantedAt_eq perm]
      rfl

/-- What the limit sell orders still give when they are added. -/
theorem stillOffered (facts : QueueFacts instrumentId start queues)
    (perm : orders.Perm (queues.buys ++ queues.sells))
    (state : PairedLimits start queues paired) (price : ℚ) :
    supplyAt Order.limit paired.heap.remaining
        (unfilledIn paired.heap queues.limitSells) price =
      stillOfferedAt orders price := by
  have left : ∀ order ∈ queues.limitSells, paired.heap.remaining order =
      start.heap.remaining order -
        filledSince start.heap paired.heap order :=
    fun order _ => (sub_sub_cancel _ _).symm
  calc
    supplyAt Order.limit paired.heap.remaining
        (unfilledIn paired.heap queues.limitSells) price
      = supplyAt Order.limit paired.heap.remaining queues.limitSells
          price :=
      totalOf_unfilledIn fun _ _ filled => filled
    _ = supplyAt Order.limit
        (fun order => start.heap.remaining order -
          filledSince start.heap paired.heap order)
        queues.limitSells price := totalOf_congr left
    _ = max 0 (supplyAt Order.limit start.heap.remaining queues.limitSells
          price -
        (queues.limitBuys.map (filledSince start.heap paired.heap)).sum) :=
      state.filled.fair.left_supply price
    _ = stillOfferedAt orders price := by
      rw [state.volume facts perm, facts.supplyAt_eq, stillOfferedAt,
        facts.limitOfferedAt_eq perm]
      rfl

end PairedLimits

namespace Staged

variable {price : ℚ}

/-- What the limit buy orders have taken from the asks. -/
theorem bought_volume (facts : QueueFacts instrumentId start queues)
    (perm : orders.Perm (queues.buys ++ queues.sells))
    (staged : Staged instrumentId known start queues context paired bought
      served after early sold reached) :
    ((unfilledIn paired.heap queues.limitBuys).map
        (filledSince paired.heap bought.heap)).sum =
      boughtVolume start.heap start.book orders := by
  have fair : Fair Order.limit paired.heap.remaining
      (filledSince paired.heap bought.heap)
      (unfilledIn paired.heap queues.limitBuys)
      (paired.book.restingOn .sell) := staged.buys.buying.meeting.fair
  have cleared := fair.sum_eq_greatestVolume staged.buys.buying.exhausted
  have wanted : demandAt Order.limit paired.heap.remaining
      (unfilledIn paired.heap queues.limitBuys) = stillWantedAt orders := by
    ext price
    exact staged.pairing.stillWanted facts perm price
  have given : supplyAt Order.limit paired.heap.remaining
        (paired.book.restingOn .sell) =
      supplyAt Order.limit start.heap.remaining
        (start.book.restingOn .sell) := by
    ext price
    rw [staged.pairing.same.restingOn]
    exact totalOf_congr fun order member =>
      staged.pairing.resting facts order (OrderBook.mem_resting_of_mem member)
  rw [cleared, wanted]
  show greatestVolume _ (supplyAt _ _ (paired.book.restingOn .sell))
    ((paired.book.restingOn .sell).map _) = _
  rw [given, staged.pairing.same.restingOn]
  rfl

/-- What the limit buy orders want when they rest in the book. -/
theorem bought_left (facts : QueueFacts instrumentId start queues)
    (perm : orders.Perm (queues.buys ++ queues.sells))
    (staged : Staged instrumentId known start queues context paired bought
      served after early sold reached) (price : ℚ) :
    demandAt Order.limit bought.heap.remaining
        (unfilledIn paired.heap queues.limitBuys) price =
      max 0 (stillWantedAt orders price -
        boughtVolume start.heap start.book orders) := by
  have fair : Fair Order.limit paired.heap.remaining
      (filledSince paired.heap bought.heap)
      (unfilledIn paired.heap queues.limitBuys)
      (paired.book.restingOn .sell) := staged.buys.buying.meeting.fair
  calc
    demandAt Order.limit bought.heap.remaining
        (unfilledIn paired.heap queues.limitBuys) price
      = demandAt Order.limit
        (fun order => paired.heap.remaining order -
          filledSince paired.heap bought.heap order)
        (unfilledIn paired.heap queues.limitBuys) price :=
      totalOf_congr fun _ _ => (sub_sub_cancel _ _).symm
    _ = max 0 (demandAt Order.limit paired.heap.remaining
          (unfilledIn paired.heap queues.limitBuys) price -
        ((unfilledIn paired.heap queues.limitBuys).map
          (filledSince paired.heap bought.heap)).sum) :=
      fair.left_demand price
    _ = max 0 (stillWantedAt orders price -
        boughtVolume start.heap start.book orders) := by
      rw [staged.bought_volume facts perm,
        staged.pairing.stillWanted facts perm]

/-- What the asks have left for the market buy orders. -/
theorem asks_left (facts : QueueFacts instrumentId start queues)
    (perm : orders.Perm (queues.buys ++ queues.sells))
    (staged : Staged instrumentId known start queues context paired bought
      served after early sold reached) :
    ((bought.book.restingOn .sell).map bought.heap.remaining).sum =
      ((start.book.restingOn .sell).map start.heap.remaining).sum -
        boughtVolume start.heap start.book orders := by
  have fair : Fair Order.limit paired.heap.remaining
      (filledSince paired.heap bought.heap)
      (unfilledIn paired.heap queues.limitBuys)
      (paired.book.restingOn .sell) := staged.buys.buying.meeting.fair
  have queue : bought.book.restingOn .sell =
      unfilledIn bought.heap (paired.book.restingOn .sell) :=
    staged.buys.buying.meeting.queue
  have left : ((bought.book.restingOn .sell).map
        bought.heap.remaining).sum =
      ((paired.book.restingOn .sell).map bought.heap.remaining).sum := by
    have unfilled : totalOf bought.heap.remaining (fun _ => true)
          (unfilledIn bought.heap (paired.book.restingOn .sell)) =
        totalOf bought.heap.remaining (fun _ => true)
          (paired.book.restingOn .sell) :=
      totalOf_unfilledIn fun _ _ filled => filled
    rw [queue, ← totalOf_all fun _ _ => rfl, unfilled,
      totalOf_all fun _ _ => rfl]
  have parts : ((paired.book.restingOn .sell).map
        paired.heap.remaining).sum =
      ((paired.book.restingOn .sell).map bought.heap.remaining).sum +
        ((paired.book.restingOn .sell).map
          (filledSince paired.heap bought.heap)).sum := by
    rw [← List.sum_map_add]
    congr 1
    apply List.map_congr_left
    intro order _
    exact (add_sub_cancel _ _).symm
  have before : ((paired.book.restingOn .sell).map
        paired.heap.remaining).sum =
      ((start.book.restingOn .sell).map start.heap.remaining).sum := by
    rw [staged.pairing.same.restingOn]
    congr 1
    apply List.map_congr_left
    intro order member
    exact staged.pairing.resting facts order
      (OrderBook.mem_resting_of_mem member)
  rw [left, ← before, parts, ← staged.bought_volume facts perm,
    fair.balanced, add_sub_cancel_right]

/-- When a market buy order is left. -/
theorem marketBuy_left_iff (facts : QueueFacts instrumentId start queues)
    (perm : orders.Perm (queues.buys ++ queues.sells))
    (staged : Staged instrumentId known start queues context paired bought
      served after early sold reached) :
    (∃ order ∈ queues.marketBuys, ¬ order.IsFilled served.heap) ↔
      ((start.book.restingOn .sell).map start.heap.remaining).sum -
          boughtVolume start.heap start.book orders <
        marketQuantity orders .buy := by
  have fair : Fair (fun _ => ()) bought.heap.remaining
      (filledSince bought.heap served.heap) queues.marketBuys
      (bought.book.restingOn .sell) := staged.buys.marketBuying.meeting.fair
  have exhausted : Exhausted (fun _ => ()) bought.heap.remaining
      (filledSince bought.heap served.heap) queues.marketBuys
      (bought.book.restingOn .sell) := staged.buys.marketBuying.exhausted
  have whole : ∀ order ∈ queues.marketBuys,
      bought.heap.remaining order = order.quantity := by
    intro order member
    rw [(staged.pairing.fresh_marketBuy facts staged.buys.buying
      member).remaining,
      (staged.pairing.fresh_market facts
        (List.mem_append_left _ member)).remaining]
    exact facts.unfilled order
      (List.mem_append_left _ (List.mem_append_right _ member))
  have supply : supplyAt (fun _ => ()) bought.heap.remaining
      (bought.book.restingOn .sell) () =
        ((start.book.restingOn .sell).map start.heap.remaining).sum -
          boughtVolume start.heap start.book orders := by
    rw [← staged.asks_left facts perm]
    exact totalOf_all fun _ _ => decide_eq_true le_rfl
  have demand : demandAt (fun _ => ()) bought.heap.remaining
      queues.marketBuys () = marketQuantity orders .buy := by
    rw [facts.marketQuantity_buy perm]
    calc
      demandAt (fun _ => ()) bought.heap.remaining queues.marketBuys ()
        = (queues.marketBuys.map bought.heap.remaining).sum :=
        totalOf_all fun _ _ => decide_eq_true le_rfl
      _ = (queues.marketBuys.map Order.quantity).sum :=
        congrArg List.sum (List.map_congr_left whole)
      _ = totalOf Order.quantity (fun _ => true) queues.marketBuys :=
        (totalOf_all fun _ _ => rfl).symm
  rw [← supply, ← demand]
  constructor
  · rintro ⟨order, member, left⟩
    have room : filledSince bought.heap served.heap order <
        bought.heap.remaining order :=
      lt_of_le_of_ne (fair.buying.bounded order member)
        fun full => left (filled_iff.mp full)
    have positive : 0 < bought.heap.remaining order := by
      rw [whole order member]
      exact order.quantity_positive
    exact (fair.bid_room_iff exhausted member positive).mp
      ⟨order, member, rfl, room⟩
  · intro more
    cases some_ : queues.marketBuys with
    | nil =>
        rw [some_] at more
        apply absurd more (not_lt.mpr _)
        apply List.sum_nonneg
        intro value inList
        rcases List.mem_map.mp inList with ⟨ask, inFilter, rfl⟩
        exact (staged.buys.buying.invariant.quantities.positive ask
          (OrderBook.mem_resting_of_mem
            (List.mem_filter.mp inFilter).1)).le
    | cons order rest =>
        have member : order ∈ queues.marketBuys := by
          rw [some_]
          exact List.mem_cons_self
        have positive : 0 < bought.heap.remaining order := by
          rw [whole order member]
          exact order.quantity_positive
        rcases (fair.bid_room_iff exhausted member positive).mpr more with
          ⟨other, otherMember, _, room⟩
        rw [some_] at otherMember
        exact ⟨other, otherMember, fun filled =>
          room.ne (filled_iff.mpr filled)⟩

/-- What the bids take which a limit sell order meets. -/
theorem bids_taken (facts : QueueFacts instrumentId start queues)
    (perm : orders.Perm (queues.buys ++ queues.sells))
    (staged : Staged instrumentId known start queues context paired bought
      served after early sold reached) (member : order ∈ queues.sells) :
    supplyAt (standing (start.book.restingOn .buy)) served.heap.remaining
        (served.book.restingOn .buy)
        (standing (start.book.restingOn .buy) order) =
      demandAt Order.limit start.heap.remaining
          (start.book.restingOn .buy) order.limit +
        max 0 (stillWantedAt orders order.limit -
          boughtVolume start.heap start.book orders) := by
  have junior := facts.junior (List.mem_append_right _ member)
  have queued := staged.buys.bids facts staged.pairing
  have byLimit : supplyAt (standing (start.book.restingOn .buy))
        served.heap.remaining (served.book.restingOn .buy)
        (standing (start.book.restingOn .buy) order) =
      demandAt Order.limit served.heap.remaining
        (served.book.restingOn .buy) order.limit := by
    rw [supplyAt, demandAt, totalOf, totalOf]
    congr 2
    apply List.filter_congr
    intro bid _
    apply decide_eq_decide.mpr
    rw [← not_lt, standing_lt_iff junior, not_lt]
  have joined : ∀ bid ∈ leftIn bought.heap
      (unfilledIn paired.heap queues.limitBuys),
        served.heap.remaining bid = bought.heap.remaining bid := by
    intro bid inLeft
    apply staged.buys.marketBuying.rested_untouched
      (marketBuying_sides facts staged.pairing staged.buys.buying)
    exact staged.buys.buying.own.own.mem_iff.mpr
      (List.mem_append_right _ inLeft)
  have left : leftIn bought.heap (unfilledIn paired.heap queues.limitBuys) =
      unfilledIn bought.heap (unfilledIn paired.heap queues.limitBuys) := by
    apply List.filter_congr
    intro bid inLeft
    apply decide_eq_decide.mpr
    exact and_iff_right (facts.limits bid
      (List.mem_append_left _ (mem_unfilledIn.mp inLeft).1))
  have ofJoined : demandAt Order.limit served.heap.remaining
        (leftIn bought.heap (unfilledIn paired.heap queues.limitBuys))
        order.limit =
      max 0 (stillWantedAt orders order.limit -
        boughtVolume start.heap start.book orders) := by
    rw [← staged.bought_left facts perm, demandAt, totalOf_congr joined,
      left]
    exact totalOf_unfilledIn fun _ _ filled => filled
  rw [byLimit, ← ofJoined, ← staged.senior_taken facts order.limit,
    demandAt, totalOf_perm queued.own, totalOf_append]
  rfl

/-- What the sell orders give which are as good as a limit sell order. -/
theorem sells_given (facts : QueueFacts instrumentId start queues)
    (perm : orders.Perm (queues.buys ++ queues.sells))
    (staged : Staged instrumentId known start queues context paired bought
      served after early sold reached)
    (member : order ∈ queues.limitSells) :
    demandAt (standing (start.book.restingOn .buy)) served.heap.remaining
        (queues.marketSells ++ unfilledIn paired.heap queues.limitSells)
        (standing (start.book.restingOn .buy) order) =
      marketQuantity orders .sell + stillOfferedAt orders order.limit := by
  have fresh : ∀ sell ∈ queues.sells,
      served.heap.remaining sell = paired.heap.remaining sell :=
    fun sell inSells =>
      (staged.buys.fresh_sells facts staged.pairing inSells).remaining
  have positive := (facts.limits order
    (List.mem_append_right _ member)).limit_positive
  have byLimit : demandAt (standing (start.book.restingOn .buy))
        served.heap.remaining
        (queues.marketSells ++ unfilledIn paired.heap queues.limitSells)
        (standing (start.book.restingOn .buy) order) =
      supplyAt Order.limit served.heap.remaining
        (queues.marketSells ++ unfilledIn paired.heap queues.limitSells)
        order.limit := by
    rw [demandAt, supplyAt, totalOf, totalOf]
    congr 2
    apply List.filter_congr
    intro sell taker
    have junior := facts.junior
      (List.mem_append_right _ (BatchQueues.mem_sells taker))
    apply decide_eq_decide.mpr
    rw [← not_lt, standing_lt_iff junior, not_lt]
  have market : supplyAt Order.limit served.heap.remaining
        queues.marketSells order.limit = marketQuantity orders .sell := by
    rw [facts.marketQuantity_sell perm]
    calc
      supplyAt Order.limit served.heap.remaining queues.marketSells
          order.limit
        = totalOf Order.quantity (fun sell => sell.limit ≤ order.limit)
          queues.marketSells := by
        apply totalOf_congr
        intro sell isMarket
        have inSells : sell ∈ queues.sells :=
          List.mem_append_left _ isMarket
        rw [fresh sell inSells, (staged.pairing.fresh_market facts
          (List.mem_append_right _ isMarket)).remaining]
        exact facts.unfilled sell (List.mem_append_right _ inSells)
      _ = totalOf Order.quantity (fun _ => true) queues.marketSells := by
        rw [totalOf, totalOf]
        congr 2
        apply List.filter_congr
        intro sell isMarket
        apply decide_eq_true
        rw [Order.limit_of_noPrice
          (facts.noPrice sell (List.mem_append_right _ isMarket))]
        exact positive.le
  have limits : supplyAt Order.limit served.heap.remaining
        (unfilledIn paired.heap queues.limitSells) order.limit =
      stillOfferedAt orders order.limit := by
    rw [← staged.pairing.stillOffered facts perm]
    apply totalOf_congr
    intro sell left
    exact fresh sell (List.mem_append_right _ (mem_unfilledIn.mp left).1)
  rw [byLimit, supplyAt, totalOf_append]
  exact congrArg₂ _ market limits

/-- A limit sell order whose price still gives something is left. -/
theorem exists_unpaired (facts : QueueFacts instrumentId start queues)
    (perm : orders.Perm (queues.buys ++ queues.sells))
    (staged : Staged instrumentId known start queues context paired bought
      served after early sold reached)
    (member : order ∈ queues.limitSells)
    (more : queues.marketSells ≠ [] ∨
      0 < stillOfferedAt orders order.limit) :
    ∃ sell ∈ unfilledIn paired.heap queues.limitSells,
      sell.limit = order.limit := by
  have isSell : order ∈ queues.sells := List.mem_append_right _ member
  have inBatch : order ∈ queues.buys ++ queues.sells :=
    List.mem_append_right _ isSell
  have positive : 0 < start.heap.remaining order := by
    rw [facts.unfilled order inBatch]
    exact order.quantity_positive
  by_cases none : queues.marketSells = []
  · have gives : pairedVolume orders < limitOfferedAt orders order.limit := by
      rcases more with some_ | gives
      · exact absurd none some_
      · rw [stillOfferedAt, lt_max_iff] at gives
        rcases gives with impossible | gives
        · exact absurd impossible (lt_irrefl _)
        · exact sub_pos.mp gives
    have fair := staged.pairing.filled.fair
    have least := volumeAt_le fair (staged.pairing.exhausted none)
      order.limit
    rw [staged.pairing.volume facts perm] at least
    rw [facts.limitOfferedAt_eq perm] at gives
    have supply : supplyAt Order.limit start.heap.remaining
        queues.limitSells order.limit =
          totalOf Order.quantity (fun sell => sell.limit ≤ order.limit)
            queues.limitSells :=
      congrFun facts.supplyAt_eq order.limit
    have unwanted : demandAt Order.limit start.heap.remaining
          queues.limitBuys order.limit <
        supplyAt Order.limit start.heap.remaining queues.limitSells
          order.limit := by
      by_contra wanted
      rw [volumeAt, min_eq_right (not_lt.mp wanted), supply] at least
      exact absurd least (not_le.mpr gives)
    rcases fair.exists_room member positive unwanted with
      ⟨sell, sellMember, same, room⟩
    exact ⟨sell, mem_unfilledIn.mpr ⟨sellMember, fun filled =>
      room.ne (filled_iff.mpr filled)⟩, same⟩
  · refine ⟨order, mem_unfilledIn.mpr ⟨member, ?_⟩, rfl⟩
    rw [Order.IsFilled, staged.pairing.idle none]
    exact positive.ne'

/-- When a limit sell order is left. -/
theorem limitSell_left_iff (facts : QueueFacts instrumentId start queues)
    (perm : orders.Perm (queues.buys ++ queues.sells))
    (staged : Staged instrumentId known start queues context paired bought
      served after early sold reached) :
    (∃ sell ∈ unfilledIn paired.heap queues.limitSells,
        ¬ sell.IsFilled after.heap) ↔
      ∃ sell ∈ queues.limitSells,
        demandAt Order.limit start.heap.remaining
              (start.book.restingOn .buy) sell.limit +
            max 0 (stillWantedAt orders sell.limit -
              boughtVolume start.heap start.book orders) <
          marketQuantity orders .sell +
            stillOfferedAt orders sell.limit := by
  have fair := staged.selling_fair
  have exhausted := staged.selling_exhausted
  have open_ : ∀ sell ∈ unfilledIn paired.heap queues.limitSells,
      0 < served.heap.remaining sell := by
    intro sell left
    rcases mem_unfilledIn.mp left with ⟨member, unfilled⟩
    have isSell : sell ∈ queues.sells := List.mem_append_right _ member
    rw [(staged.buys.fresh_sells facts staged.pairing isSell).remaining]
    exact lt_of_le_of_ne (staged.pairing.fillable facts
      (List.mem_append_right _ member)).nonnegative (Ne.symm unfilled)
  have room_iff : ∀ sell ∈ unfilledIn paired.heap queues.limitSells,
      (∃ other ∈ queues.marketSells ++
          unfilledIn paired.heap queues.limitSells,
        standing (start.book.restingOn .buy) other =
            standing (start.book.restingOn .buy) sell ∧
          filledSince served.heap after.heap other <
            served.heap.remaining other) ↔
      demandAt Order.limit start.heap.remaining
            (start.book.restingOn .buy) sell.limit +
          max 0 (stillWantedAt orders sell.limit -
            boughtVolume start.heap start.book orders) <
        marketQuantity orders .sell +
          stillOfferedAt orders sell.limit := by
    intro sell left
    have member := (mem_unfilledIn.mp left).1
    rw [fair.bid_room_iff exhausted (List.mem_append_right _ left)
      (open_ sell left),
      staged.bids_taken facts perm (List.mem_append_right _ member),
      staged.sells_given facts perm member]
  constructor
  · rintro ⟨sell, left, unfilled⟩
    refine ⟨sell, (mem_unfilledIn.mp left).1,
      (room_iff sell left).mp
        ⟨sell, List.mem_append_right _ left, rfl, ?_⟩⟩
    exact lt_of_le_of_ne
      (fair.buying.bounded sell (List.mem_append_right _ left))
      fun full => unfilled (filled_iff.mp full)
  · rintro ⟨sell, member, more⟩
    have unpaired : ∃ other ∈ unfilledIn paired.heap queues.limitSells,
        other.limit = sell.limit := by
      apply staged.exists_unpaired facts perm member
      by_contra neither
      rcases not_or.mp neither with ⟨some_, gives⟩
      have nothing : marketQuantity orders .sell = 0 := by
        rw [facts.marketQuantity_sell perm, not_not.mp some_]
        rfl
      have taken : 0 ≤ demandAt Order.limit start.heap.remaining
          (start.book.restingOn .buy) sell.limit := by
        apply List.sum_nonneg
        intro value inList
        rcases List.mem_map.mp inList with ⟨bid, inFilter, rfl⟩
        exact (facts.invariant.quantities.positive bid
          (OrderBook.mem_resting_of_mem
            (List.mem_filter.mp inFilter).1)).le
      rw [nothing, zero_add] at more
      exact gives ((add_nonneg taken (le_max_left _ _)).trans_lt more)
    rcases unpaired with ⟨first, firstLeft, same⟩
    rw [← same] at more
    rcases (room_iff first firstLeft).mpr more with
      ⟨other, taker, equal, room⟩
    have sameLimit : other.limit = first.limit :=
      neg_inj.mp (congrArg (fun rank => (ofLex rank).1) equal)
    rcases List.mem_append.mp taker with market | left
    · have zero := Order.limit_of_noPrice
        (facts.noPrice other (List.mem_append_right _ market))
      have positive := (facts.limits first (List.mem_append_right _
        (mem_unfilledIn.mp firstLeft).1)).limit_positive
      rw [← sameLimit, zero] at positive
      exact absurd positive (lt_irrefl _)
    · exact ⟨other, left, fun filled =>
        room.ne (filled_iff.mpr filled)⟩

/-- A market sell order which is left has met all bids. -/
theorem bids_empty (facts : QueueFacts instrumentId start queues)
    (staged : Staged instrumentId known start queues context paired bought
      served after early sold reached)
    (member : order ∈ queues.marketSells)
    (left : ¬ order.IsFilled after.heap) :
    after.book.restingOn .buy = [] := by
  have queue : after.book.restingOn .buy =
      unfilledIn after.heap (served.book.restingOn .buy) :=
    staged.sells.meeting.queue
  have inSells : order ∈ queues.sells := List.mem_append_left _ member
  have junior := facts.junior (List.mem_append_right _ inSells)
  rw [queue, unfilledIn, List.filter_eq_nil_iff]
  intro bid isBid unfilled
  have beyond := staged.sells.meeting.settled order
    (List.mem_append_left _ member) left bid isBid
    (of_decide_eq_true unfilled)
  have above : bid.limit < order.limit := (standing_lt_iff junior).mp beyond
  rw [Order.limit_of_noPrice
    (facts.noPrice order (List.mem_append_right _ member))] at above
  exact absurd above (staged.buys.marketBuying.invariant.shape.limit_positive
    isBid).asymm

/-- Once a market buy order is left only limit sell orders are asks. -/
theorem asks_empty_iff
    (staged : Staged instrumentId known start queues context paired bought
      served after early sold reached)
    (facts : QueueFacts instrumentId start queues)
    (member : order ∈ queues.marketBuys)
    (left : ¬ order.IsFilled served.heap) :
    after.book.restingOn .sell = [] ↔
      ¬ ∃ sell ∈ unfilledIn paired.heap queues.limitSells,
        ¬ sell.IsFilled after.heap := by
  have taken : served.book.restingOn .sell = [] := by
    have queue : served.book.restingOn .sell =
        unfilledIn served.heap (bought.book.restingOn .sell) :=
      staged.buys.marketBuying.meeting.queue
    rw [queue, unfilledIn, List.filter_eq_nil_iff]
    intro ask isAsk unfilled
    exact lt_irrefl () (staged.buys.marketBuying.meeting.settled order
      member left ask isAsk (of_decide_eq_true unfilled))
  have queued : QueuedBehind (served.book.restingOn .sell)
      (leftIn after.heap (queues.marketSells ++
        unfilledIn paired.heap queues.limitSells))
      (after.book.restingOn .sell) := staged.sells.own
  have own := queued.own
  rw [taken, List.nil_append] at own
  constructor
  · rintro empty ⟨sell, isLeft, unfilled⟩
    rw [empty] at own
    have inLeft : sell ∈ leftIn after.heap (queues.marketSells ++
        unfilledIn paired.heap queues.limitSells) :=
      List.mem_filter.mpr ⟨List.mem_append_right _ isLeft,
        decide_eq_true ⟨facts.limits sell (List.mem_append_right _
          (mem_unfilledIn.mp isLeft).1), unfilled⟩⟩
    rw [own.symm.eq_nil] at inLeft
    cases inLeft
  · intro none
    have nothing : leftIn after.heap (queues.marketSells ++
        unfilledIn paired.heap queues.limitSells) = [] := by
      rw [leftIn, List.filter_eq_nil_iff]
      intro sell taker both
      have stays := of_decide_eq_true both
      rcases List.mem_append.mp taker with market | isLeft
      · exact facts.not_limit_of_market
          (List.mem_append_right _ market) stays.1
      · exact none ⟨sell, isLeft, stays.2⟩
    rw [nothing] at own
    exact own.eq_nil

/-- The market orders take all there is unless liquidity is left. -/
theorem takesLiquidity_iff (facts : QueueFacts instrumentId start queues)
    (perm : orders.Perm (queues.buys ++ queues.sells))
    (staged : Staged instrumentId known start queues context paired bought
      served after early sold reached) :
    TakesLiquidity orders after ↔
      ¬ LeavesLiquidity start.heap start.book orders := by
  have leaves : LeavesLiquidity start.heap start.book orders ↔
      (∃ order ∈ queues.marketBuys, ¬ order.IsFilled served.heap) ∧
        ∃ sell ∈ unfilledIn paired.heap queues.limitSells,
          ¬ sell.IsFilled after.heap := by
    rw [staged.marketBuy_left_iff facts perm,
      staged.limitSell_left_iff facts perm, LeavesLiquidity]
    apply and_congr_right
    intro _
    apply exists_congr
    intro sell
    rw [facts.mem_limitSells_iff perm, and_assoc, and_assoc]
  have same : ∀ order ∈ queues.marketBuys,
      after.heap.remaining order = served.heap.remaining order := by
    intro order member
    have isBuy : order ∈ queues.buys := List.mem_append_right _ member
    apply staged.sells.meeting.others
    intro inBoth
    rcases List.mem_map.mp inBoth with ⟨other, otherMember, equal⟩
    rcases List.mem_append.mp otherMember with taker | bid
    · exact facts.apart isBuy (BatchQueues.mem_sells taker) equal.symm
    · rcases List.mem_append.mp
        ((staged.buys.bids facts staged.pairing).own.mem_iff.mp bid) with
        before | joined
      · exact facts.invariant.shape.not_mem_resting
          (facts.addable order (List.mem_append_left _ isBuy)).absent other
          (OrderBook.mem_resting_of_mem before) equal
      · have limit := (mem_unfilledIn.mp (List.mem_filter.mp joined).1).1
        exact orderId_apart facts.buysDistinct limit member equal
  rw [leaves]
  constructor
  · rintro takes ⟨⟨order, member, left⟩, some_⟩
    have isBuy : order ∈ queues.buys := List.mem_append_right _ member
    have unfilled : ¬ order.IsFilled after.heap := by
      rw [Order.IsFilled, same order member]
      exact left
    have empty := takes order
      (perm.mem_iff.mpr (List.mem_append_left _ isBuy))
      (facts.noPrice order (List.mem_append_left _ member)) unfilled
    rw [facts.isBuy order isBuy] at empty
    exact (staged.asks_empty_iff facts member left).mp empty some_
  · intro neither order member noPrice unfilled
    have notLimit : ¬ order.IsLimitOrder := by
      intro isLimit
      have priced := isLimit.price_eq
      rw [noPrice] at priced
      cases priced
    rcases List.mem_append.mp (perm.mem_iff.mp member) with buy | sell
    · rcases List.mem_append.mp buy with limit | market
      · exact absurd (facts.limits order (List.mem_append_left _ limit))
          notLimit
      · have left : ¬ order.IsFilled served.heap := by
          rw [Order.IsFilled, ← same order market]
          exact unfilled
        rw [facts.isBuy order buy]
        exact (staged.asks_empty_iff facts market left).mpr fun some_ =>
          neither ⟨⟨order, market, left⟩, some_⟩
    · rcases List.mem_append.mp sell with market | limit
      · rw [facts.isSell order sell]
        exact staged.bids_empty facts market unfilled
      · exact absurd (facts.limits order (List.mem_append_right _ limit))
          notLimit

end Staged

end OneInstrument

/-! ## The whole batch -/

/-- Liquidity is left to the market orders of an instrument. -/
def LeavesAt (market : Market) (collected : String × List Order) : Prop :=
  ∃ book, market.orderBooks.get? collected.1 = some book ∧
    LeavesLiquidity market.heap book collected.2

instance (market : Market) (collected : String × List Order) :
    Decidable (LeavesAt market collected) :=
  inferInstanceAs
    (Decidable (∃ book ∈ market.orderBooks.get? collected.1, _))

/-- The market orders of an instrument have taken what there was. -/
def TakesAt (market : Market) (collected : String × List Order) : Prop :=
  ∀ book, market.orderBooks.get? collected.1 = some book →
    TakesLiquidity collected.2 ⟨market.heap, book⟩

/--
No market order of the batch has unfilled quantity while the book of its
instrument still holds orders on the opposite side.
-/
def BatchTakesLiquidity (pending : PendingOrders) (market : Market) :
    Prop :=
  ∀ order ∈ ordersOf pending.entries, order.price = none →
    ¬ order.IsFilled market.heap →
      ∀ book, market.orderBooks.get? order.instrumentId = some book →
        book.restingOn order.side.opposite = []

section Whole

variable {market : Market} {pending : PendingOrders}
  {context reached : BatchContext} {heap other : Heap}
  {book : OrderBook} {orders : List Order}

/-- Only what rests in the book matters. -/
theorem LeavesLiquidity.congr
    (same : ∀ order ∈ book.resting,
      heap.remaining order = other.remaining order) :
    LeavesLiquidity heap book orders ↔
      LeavesLiquidity other book orders := by
  have onSide : ∀ side, ∀ order ∈ book.restingOn side,
      heap.remaining order = other.remaining order :=
    fun side order member => same order (OrderBook.mem_resting_of_mem member)
  have demand : ∀ price,
      demandAt Order.limit heap.remaining (book.restingOn .buy) price =
        demandAt Order.limit other.remaining (book.restingOn .buy) price :=
    fun _ => totalOf_congr (onSide .buy)
  have supply :
      supplyAt Order.limit heap.remaining (book.restingOn .sell) =
        supplyAt Order.limit other.remaining (book.restingOn .sell) := by
    ext price
    exact totalOf_congr (onSide .sell)
  have asks : (book.restingOn .sell).map heap.remaining =
      (book.restingOn .sell).map other.remaining :=
    List.map_congr_left (onSide .sell)
  simp only [LeavesLiquidity, boughtVolume, demand, supply, asks]

theorem TakesLiquidity.congr
    (same : ∀ order ∈ orders, heap.remaining order = other.remaining order) :
    TakesLiquidity orders ⟨heap, book⟩ ↔
      TakesLiquidity orders ⟨other, book⟩ := by
  apply forall_congr'
  intro order
  apply forall_congr'
  intro member
  apply imp_congr Iff.rfl
  apply imp_congr
  · rw [Order.IsFilled, Order.IsFilled, same order member]
  · exact Iff.rfl

/-- The orders of one more instrument are matched. -/
theorem takesAt_next (draw : String → ℚ)
    {done later : List (String × List Order)}
    {collected : String × List Order}
    (ready : BatchReady market pending)
    (split : pending.entries = done ++ collected :: later)
    (still : StillToMatchOf market (collected :: later) context)
    (filed : context.Filed (PlaceOf pending))
    (sofar : ∀ other ∈ done,
      (TakesAt context.market other ↔ ¬ LeavesAt market other))
    (evaluated :
      BatchMatchingEngine.matchInstrument draw collected context =
        .ok ⟨⟩ reached)
    (touched : BatchContext.Touched (idsAt context.market collected.1)
      collected.1 context reached) :
    ∀ other ∈ done ++ [collected],
      (TakesAt reached.market other ↔ ¬ LeavesAt market other) := by
  have member : collected ∈ pending.entries := by
    rw [split]
    exact List.mem_append_right _ List.mem_cons_self
  have asFound := still.found collected List.mem_cons_self
  have before : ∀ other ∈ done,
      (TakesAt reached.market other ↔ ¬ LeavesAt market other) := by
    intro other isDone
    have otherMember : other ∈ pending.entries := by
      rw [split]
      exact List.mem_append_left _ isDone
    have different : other.1 ≠ collected.1 :=
      entries_apart split other (List.mem_append_left _ isDone)
    have same : ∀ order ∈ other.2,
        reached.market.heap.remaining order =
          context.market.heap.remaining order := by
      intro order inOther
      apply remaining_touched ready.sound.shape.distinct still.orders
        touched
      · exact (ready.waiting order
          (List.mem_flatMap.mpr ⟨other, otherMember, inOther⟩)).taken
      · rw [ready.inside other otherMember order inOther]
        exact different
    rw [← sofar other isDone, TakesAt, TakesAt,
      touched.market.books other.1 different]
    apply forall_congr'
    intro book
    apply imp_congr Iff.rfl
    exact TakesLiquidity.congr same
  refine List.forall_mem_append.mpr
    ⟨before, List.forall_mem_singleton.mpr ?_⟩
  cases found : context.market.orderBooks.get? collected.1 with
  | none =>
      rw [matchInstrument_unlisted draw found] at evaluated
      rcases EStateM.Result.ok.inj evaluated with ⟨_, rfl⟩
      apply iff_of_true
      · intro book bookFound
        rw [found] at bookFound
        cases bookFound
      · rintro ⟨book, bookFound, _⟩
        rw [← asFound.book, found] at bookFound
        cases bookFound
  | some book =>
      have turn := still.inTurn ready split found
      have facts := turn.queueFacts draw
      have places : ∀ order ∈ collected.2,
          PlaceOf pending collected.1 order.orderId :=
        fun order inOrders => ⟨order,
          List.mem_flatMap.mpr ⟨collected, member, inOrders⟩,
          ready.inside collected member order inOrders, rfl⟩
      rcases (matchInstrument_staged draw turn ⟨found, rfl⟩ filed
        places).elim_ok evaluated with
        ⟨paired, bought, served, after, early, sold, staged⟩
      have perm := BatchQueues.ofOrders_perm draw collected.2
      have takes : TakesAt reached.market collected ↔
          TakesLiquidity collected.2 after := by
        rw [TakesAt, staged.has.found, staged.has.heap]
        constructor
        · exact fun all => all after.book rfl
        · intro all other equal
          rcases Option.some.inj equal with rfl
          exact all
      have leaves : LeavesAt market collected ↔
          LeavesLiquidity context.market.heap book collected.2 := by
        rw [LeavesLiquidity.congr (still.resting found), LeavesAt,
          ← asFound.book, found]
        constructor
        · rintro ⟨other, equal, left⟩
          rcases Option.some.inj equal with rfl
          exact left
        · exact fun left => ⟨book, rfl, left⟩
      exact takes.trans ((staged.takesLiquidity_iff facts perm).trans
        (not_congr leaves.symm))

/--
The market orders of a batch take the liquidity there is if and only if at
no instrument a market buy order is left without asks before a limit sell
order of the batch is left in the book.
-/
theorem runBatch_takesLiquidity_iff (draw : String → ℚ)
    (ready : BatchReady market pending) :
    Ends (BatchMatchingEngine.runBatch draw pending)
      (BatchContext.start market)
      (fun _ reached => BatchTakesLiquidity pending reached.market ↔
        ∀ collected ∈ pending.entries, ¬ LeavesAt market collected)
      (fun _ _ => False) := by
  have matching := matchBatchOrders_ends draw ready
    (fun done reached => TruthSofar market pending done reached ∧
      ∀ other ∈ done,
        (TakesAt reached.market other ↔ ¬ LeavesAt market other))
    ⟨TruthSofar.start market pending, fun _ member => nomatch member⟩
    fun done collected later context reached split still sofar evaluated
      touched =>
        ⟨sofar.1.next draw ready split still evaluated touched,
          takesAt_next draw ready split still sofar.1.filed sofar.2
            evaluated touched⟩
  rw [BatchMatchingEngine.runBatch]
  apply matching.bind
  rintro _ matched ⟨_, _, takes⟩
  apply (finalizeResults_market pending matched).bind
  intro _ finished equal
  rw [ends_get_bind, ends_pure, equal]
  constructor
  · intro all collected member
    rw [← takes collected member]
    intro book found order inOrders noPrice left
    apply all order (List.mem_flatMap.mpr ⟨collected, member, inOrders⟩)
      noPrice left
    rw [ready.inside collected member order inOrders]
    exact found
  · intro none order inBatch noPrice left book found
    rcases List.mem_flatMap.mp inBatch with ⟨collected, member, inOrders⟩
    rw [ready.inside collected member order inOrders] at found
    exact (takes collected member).mpr (none collected member) book found
      order inOrders noPrice left

end Whole

/-! ## A market buy order and a limit sell order -/

namespace Sample

/-- The batch of an empty book: one market order, one limit order. -/
def boughtTooEarly : ExchangeVenue :=
  replay VenueCall.execute closedVenue
    [ .checkPhaseTransitions (PhaseState.default .preOpen) fun _ => 0,
      .listInstrument { symbol := "CALL" },
      .submitOrder marketBuy,
      .submitOrder sellTen ]

end Sample

/-- A market sell order takes what a limit buy order of the batch offers. -/
theorem runBatch_takesLiquidity_soldToBatch :
    Ends
      (BatchMatchingEngine.runBatch (fun _ => 0)
        Sample.soldToBatch.pendingOrders)
      (BatchContext.start Sample.soldToBatch.market)
      (fun _ reached =>
        BatchTakesLiquidity Sample.soldToBatch.pendingOrders reached.market)
      (fun _ _ => False) := by
  have sound : VenueSound Sample.soldToBatch :=
    VenueSound.of_run (VenueSound.new _ _) (run_replay (by decide +kernel))
      (by decide +kernel)
  have ends := runBatch_takesLiquidity_iff (fun _ => 0)
    (sound.ready (by decide +kernel))
  refine ends.mono ?_ fun _ _ raised => raised
  intro results reached takes
  exact takes.mpr (by decide +kernel)

/--
The market buy order is added to an empty book and vanishes; the limit sell
order which could have filled it rests in the book afterwards.
-/
theorem runBatch_leavesLiquidity :
    ¬ ∀ (draw : String → ℚ) (market : Market) (pending : PendingOrders),
      BatchReady market pending →
      ∀ results reached,
        BatchMatchingEngine.runBatch draw pending
            (BatchContext.start market) = .ok results reached →
          BatchTakesLiquidity pending reached.market := by
  intro takes
  let venue := Sample.boughtTooEarly
  have sound : VenueSound venue :=
    VenueSound.of_run (VenueSound.new _ _) (run_replay (by decide +kernel))
      (by decide +kernel)
  have ready : BatchReady venue.market venue.pendingOrders :=
    sound.ready (by decide +kernel)
  rcases (runBatch_sound (fun _ => 0) sound.batch
    ready.inside).exists_ok with ⟨results, reached, evaluated, _⟩
  have final :
      (finalState
        (BatchMatchingEngine.runBatch (fun _ => 0) venue.pendingOrders
          { market := venue.market, results := ∅ })).market.heap.remaining
            Sample.marketBuy = 4 ∧
      ((finalState
        (BatchMatchingEngine.runBatch (fun _ => 0) venue.pendingOrders
          { market := venue.market
            results := ∅ })).market.orderBooks.get? "CALL").map
              (fun book => book.restingOn .sell) =
        some [Sample.sellTen] := by
    decide +kernel
  rw [evaluated, finalState_ok] at final
  rcases final with ⟨left, rests⟩
  rcases Option.map_eq_some_iff.mp rests with ⟨book, found, asks⟩
  have empty := takes (fun _ => 0) venue.market venue.pendingOrders ready
    results reached evaluated Sample.marketBuy (by decide +kernel) rfl
    (by rw [Order.IsFilled, left]; decide +kernel) book found
  have isEmpty : book.restingOn .sell = [] := empty
  rw [asks] at isEmpty
  cases isEmpty

end InternTradingGame
