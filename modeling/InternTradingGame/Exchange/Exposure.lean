import InternTradingGame.Exchange.Interference
import InternTradingGame.OrderBook.Priority
import Mathlib.Algebra.Order.BigOperators.Group.Finset

/-!
# The open quantity of a team

The open quantity of a team on one side of an instrument is what its live
orders there have left.  Whatever a call of the exchange does, what becomes
of the open quantity and what the team trades on that side come out of what
was open before and out of the order which is submitted.
-/

namespace InternTradingGame

open Effects

/-! ## What has been bought and sold -/

/-- The team on one side of a trade. -/
def Trade.teamOn (trade : Trade) : OrderSide → String
  | .buy => trade.buyerId
  | .sell => trade.sellerId

/-- What a team trades of an instrument on one side. -/
def Trade.quantityOn (trade : Trade) (side : OrderSide)
    (teamId instrumentId : String) : ℚ :=
  if trade.instrumentId = instrumentId ∧ trade.teamOn side = teamId then
    trade.quantity
  else
    0

/-- What a team has traded of an instrument on one side. -/
def tradedOn (side : OrderSide) (teamId instrumentId : String)
    (trades : List Trade) : ℚ :=
  (trades.map fun trade =>
    trade.quantityOn side teamId instrumentId).sum

section Traded

variable (side : OrderSide) (teamId instrumentId : String)

theorem tradedOn_append (first second : List Trade) :
    tradedOn side teamId instrumentId (first ++ second) =
      tradedOn side teamId instrumentId first +
        tradedOn side teamId instrumentId second := by
  rw [tradedOn, List.map_append, List.sum_append]
  rfl

theorem tradedOn_cons (trade : Trade) (rest : List Trade) :
    tradedOn side teamId instrumentId (trade :: rest) =
      trade.quantityOn side teamId instrumentId +
        tradedOn side teamId instrumentId rest := by
  rw [tradedOn, List.map_cons, List.sum_cons]
  rfl

theorem Trade.quantityOn_nonneg (trade : Trade) :
    0 ≤ trade.quantityOn side teamId instrumentId := by
  rw [Trade.quantityOn]
  split_ifs
  · exact trade.quantity_positive.le
  · exact le_rfl

theorem tradedOn_nonneg (trades : List Trade) :
    0 ≤ tradedOn side teamId instrumentId trades := by
  apply List.sum_nonneg
  intro quantity member
  rcases List.mem_map.mp member with ⟨trade, _, rfl⟩
  exact trade.quantityOn_nonneg side teamId instrumentId

theorem tradedQuantity_nonneg (orderId : String) (trades : List Trade) :
    0 ≤ tradedQuantity orderId trades := by
  apply List.sum_nonneg
  intro quantity member
  rcases List.mem_map.mp member with ⟨trade, _, rfl⟩
  exact trade.quantity_positive.le

end Traded

/-! ## The orders of a team on one side -/

/-- The order is one of the team on the side of the instrument. -/
def Order.IsOn (order : Order) (side : OrderSide)
    (teamId instrumentId : String) : Prop :=
  order.side = side ∧ order.traderId = teamId ∧
    order.instrumentId = instrumentId

instance (order : Order) (side : OrderSide)
    (teamId instrumentId : String) :
    Decidable (order.IsOn side teamId instrumentId) :=
  inferInstanceAs (Decidable (_ ∧ _ ∧ _))

/-- The quantity of an order, if it is on the side. -/
def Order.quantityOn (order : Order) (side : OrderSide)
    (teamId instrumentId : String) : ℚ :=
  if order.IsOn side teamId instrumentId then order.quantity else 0

theorem Order.quantityOn_nonneg (order : Order) (side : OrderSide)
    (teamId instrumentId : String) :
    0 ≤ order.quantityOn side teamId instrumentId := by
  rw [Order.quantityOn]
  split_ifs
  · exact order.quantity_positive.le
  · exact le_rfl

/-- What a call submits on a side. -/
def VenueCall.quantityOn (side : OrderSide)
    (teamId instrumentId : String) : VenueCall → ℚ
  | .submitOrder order => order.quantityOn side teamId instrumentId
  | _ => 0

/-- What some calls submit on a side. -/
def submittedOn (side : OrderSide) (teamId instrumentId : String)
    (calls : List VenueCall) : ℚ :=
  (calls.map (VenueCall.quantityOn side teamId instrumentId)).sum

namespace ExchangeVenue

variable (venue : ExchangeVenue) (side : OrderSide)
  (teamId instrumentId : String)

/-- The orders of an instrument which rest or wait for the auction. -/
def liveOrders : List Order :=
  ((venue.market.orderBooks.get? instrumentId).map
      OrderBook.resting).getD [] ++
    (venue.pendingOrders.get? instrumentId).getD []

/-- The live orders of a team on one side of an instrument. -/
def openOrders : Finset Order :=
  venue.market.heap.orders.toFinset.filter fun order =>
    order.IsOn side teamId instrumentId ∧
      order ∈ venue.liveOrders instrumentId

/-- What the live orders of a team have left. -/
def openQuantity : ℚ :=
  ∑ order ∈ venue.openOrders side teamId instrumentId,
    venue.market.heap.remaining order

variable {venue instrumentId}

theorem live_of_mem_liveOrders {order : Order}
    (member : order ∈ venue.liveOrders instrumentId) :
    venue.Live order := by
  rcases List.mem_append.mp member with rests | pending
  · left
    cases found : venue.market.orderBooks.get? instrumentId with
    | none =>
        rw [found] at rests
        cases rests
    | some book =>
        rw [found] at rests
        exact ⟨instrumentId, book, found, rests⟩
  · right
    cases found : venue.pendingOrders.get? instrumentId with
    | none =>
        rw [found] at pending
        cases pending
    | some orders =>
        rw [found] at pending
        exact ⟨instrumentId, orders, found, pending⟩

theorem mem_liveOrders_of_live (shape : VenueShape venue) {order : Order}
    (live : venue.Live order)
    (instrument : order.instrumentId = instrumentId) :
    order ∈ venue.liveOrders instrumentId := by
  apply List.mem_append.mpr
  rcases live with ⟨other, book, found, member⟩ |
    ⟨other, orders, found, member⟩
  · left
    have same := shape.market.instrument_of_rests found member
    rw [← instrument, same, found]
    exact member
  · right
    have same := (shape.pending other orders found order member).1
    rw [← instrument, same, found]
    exact member

end ExchangeVenue

/-! ## What a call does to the open quantity -/

/-- The order on one side of a trade belongs to the team on that side. -/
theorem TradeBetween.exists_isOn {trade : Trade} {buy sell : Order}
    (between : TradeBetween trade buy sell) (side : OrderSide) :
    ∃ order, (order = buy ∨ order = sell) ∧
      order.IsOn side (trade.teamOn side) trade.instrumentId ∧
        trade.Names order.orderId := by
  cases side with
  | buy =>
      refine ⟨buy, Or.inl rfl, ?_, ?_⟩
      · exact ⟨between.buySide, between.buyer.symm,
          between.buyInstrument.symm⟩
      · exact (between.names_iff _).mpr (Or.inl rfl)
  | sell =>
      refine ⟨sell, Or.inr rfl, ?_, ?_⟩
      · exact ⟨between.sellSide, between.seller.symm,
          between.sellInstrument.symm⟩
      · exact (between.names_iff _).mpr (Or.inr rfl)

theorem VenueCall.quantityOn_nonneg (call : VenueCall)
    (side : OrderSide) (teamId instrumentId : String) :
    0 ≤ call.quantityOn side teamId instrumentId := by
  cases call with
  | submitOrder order =>
      exact order.quantityOn_nonneg side teamId instrumentId
  | _ => exact le_rfl

/-- The orders of a team on one side which a call may trade. -/
def partiesOn (venue next : ExchangeVenue) (side : OrderSide)
    (teamId instrumentId : String) : Finset Order :=
  next.market.heap.orders.toFinset.filter fun order =>
    order.IsOn side teamId instrumentId ∧
      (order ∈ venue.liveOrders instrumentId ∨
        order ∉ venue.market.heap.orders)

section Step

variable {venue next : ExchangeVenue} {call : VenueCall}
  {side : OrderSide} {teamId instrumentId : String}

theorem mem_partiesOn (shape : VenueShape venue)
    (advances : Advances venue next) {order : Order}
    (party : VenueParty venue next order)
    (isOn : order.IsOn side teamId instrumentId) :
    order ∈ partiesOn venue next side teamId instrumentId := by
  rw [partiesOn, Finset.mem_filter, List.mem_toFinset]
  rcases party with live | ⟨taken, new⟩
  · exact ⟨advances.2.orders (shape.live_taken live), isOn,
      Or.inl (ExchangeVenue.mem_liveOrders_of_live shape live isOn.2.2)⟩
  · exact ⟨taken, isOn, Or.inr new⟩

/-- A trade of a team is made by one of its orders. -/
theorem quantityOn_le_parties (shape : VenueShape venue)
    (advances : Advances venue next) {trade : Trade}
    (between : ∃ buy sell,
      VenueParty venue next buy ∧ VenueParty venue next sell ∧
        TradeBetween trade buy sell) :
    trade.quantityOn side teamId instrumentId ≤
      ∑ order ∈ partiesOn venue next side teamId instrumentId,
        if trade.Names order.orderId then trade.quantity else 0 := by
  have nonnegative : ∀ order ∈
      partiesOn venue next side teamId instrumentId,
        (0 : ℚ) ≤
          if trade.Names order.orderId then trade.quantity else 0 := by
    intro order _
    split_ifs
    · exact trade.quantity_positive.le
    · exact le_rfl
  rw [Trade.quantityOn]
  split_ifs with onSide
  · rcases between with ⟨buy, sell, buyParty, sellParty, isBetween⟩
    rcases isBetween.exists_isOn side with ⟨order, isParty, isOn, names⟩
    rw [onSide.1, onSide.2] at isOn
    have party : VenueParty venue next order := by
      rcases isParty with rfl | rfl
      · exact buyParty
      · exact sellParty
    have single := Finset.single_le_sum nonnegative
      (mem_partiesOn shape advances party isOn)
    rw [if_pos names] at single
    exact single
  · exact Finset.sum_nonneg nonnegative

variable (side teamId instrumentId)

/-- The trades of a team are made by its orders. -/
theorem tradedOn_le_parties (shape : VenueShape venue)
    (advances : Advances venue next) {made : List Trade}
    (between : ∀ trade ∈ made, ∃ buy sell,
      VenueParty venue next buy ∧ VenueParty venue next sell ∧
        TradeBetween trade buy sell) :
    tradedOn side teamId instrumentId made ≤
      ∑ order ∈ partiesOn venue next side teamId instrumentId,
        tradedQuantity order.orderId made := by
  induction made with
  | nil => exact (Finset.sum_eq_zero fun _ _ => rfl).ge
  | cons trade rest induction =>
      simp only [tradedOn_cons, tradedQuantity_cons,
        Finset.sum_add_distrib]
      apply add_le_add
      · exact quantityOn_le_parties shape advances
          (between trade List.mem_cons_self)
      · exact induction fun other member =>
          between other (List.mem_cons_of_mem _ member)

/-- What the orders of a team had before a call which knew them. -/
theorem sum_parties_old (sound : VenueSound venue)
    (next : ExchangeVenue) :
    ∑ order ∈ partiesOn venue next side teamId instrumentId with
        order ∈ venue.market.heap.orders,
      (order.quantity -
        tradedQuantity order.orderId venue.market.heap.trades) ≤
      venue.openQuantity side teamId instrumentId := by
  have subset : {order ∈ partiesOn venue next side teamId instrumentId |
        order ∈ venue.market.heap.orders} ⊆
      venue.openOrders side teamId instrumentId := by
    intro order member
    rcases Finset.mem_filter.mp member with ⟨party, taken⟩
    rcases Finset.mem_filter.mp party with ⟨_, isOn, live | new⟩
    · exact Finset.mem_filter.mpr
        ⟨List.mem_toFinset.mpr taken, isOn, live⟩
    · exact absurd taken new
  calc
    _ = ∑ order ∈ partiesOn venue next side teamId instrumentId with
          order ∈ venue.market.heap.orders,
        venue.market.heap.remaining order := by
      apply Finset.sum_congr rfl
      intro order member
      have accounted := sound.market.accounted order
        (Finset.mem_filter.mp member).2
      rw [accounted, sub_sub_cancel]
    _ ≤ venue.openQuantity side teamId instrumentId := by
      apply Finset.sum_le_sum_of_subset_of_nonneg subset
      intro order member _
      exact (sound.market.fillable order
        (List.mem_toFinset.mp (Finset.mem_filter.mp member).1)).nonnegative

/-- The only new order of a team is the one which is submitted. -/
theorem sum_parties_new (sound : VenueSound venue)
    (step : VenueStep venue call next) (whole : call.WholeQuantity) :
    ∑ order ∈ partiesOn venue next side teamId instrumentId with
        order ∉ venue.market.heap.orders,
      (order.quantity -
        tradedQuantity order.orderId venue.market.heap.trades) ≤
      call.quantityOn side teamId instrumentId := by
  rcases step with ⟨allowed, rfl⟩
  have isSubmitted : ∀ order ∈
      {order ∈ partiesOn venue (call.execute venue) side teamId
          instrumentId | order ∉ venue.market.heap.orders},
        call = .submitOrder order ∧
          order.IsOn side teamId instrumentId := by
    intro order member
    rcases Finset.mem_filter.mp member with ⟨party, new⟩
    rcases Finset.mem_filter.mp party with ⟨taken, isOn, _⟩
    rcases execute_taken sound allowed whole order
        (List.mem_toFinset.mp taken) with old | submits
    · exact absurd old new
    · exact ⟨submits, isOn⟩
  rcases Finset.eq_empty_or_nonempty
      {order ∈ partiesOn venue (call.execute venue) side teamId
          instrumentId | order ∉ venue.market.heap.orders} with
    none | ⟨submitted, member⟩
  · rw [none, Finset.sum_empty]
    exact call.quantityOn_nonneg side teamId instrumentId
  · rcases isSubmitted submitted member with ⟨rfl, isOn⟩
    have only : {order ∈ partiesOn venue
          (VenueCall.execute (.submitOrder submitted) venue) side teamId
          instrumentId | order ∉ venue.market.heap.orders} =
        {submitted} := by
      apply Finset.eq_singleton_iff_unique_mem.mpr
      refine ⟨member, fun other otherMember => ?_⟩
      exact (VenueCall.submitOrder.inj
        (isSubmitted other otherMember).1).symm
    rw [only, Finset.sum_singleton, VenueCall.quantityOn,
      Order.quantityOn, if_pos isOn]
    exact sub_le_self _ (tradedQuantity_nonneg _ _)

/-- What was open and the order which is submitted cover what happens. -/
theorem openQuantity_step (sound : VenueSound venue)
    (nextSound : VenueSound next) (step : VenueStep venue call next)
    (whole : call.WholeQuantity) :
    next.openQuantity side teamId instrumentId +
        tradedOn side teamId instrumentId next.market.heap.trades ≤
      venue.openQuantity side teamId instrumentId +
          tradedOn side teamId instrumentId venue.market.heap.trades +
        call.quantityOn side teamId instrumentId := by
  have advances := venueStep_advances sound.shape step
  rcases advances.2.trades with ⟨made, recorded, between⟩
  have traded := tradedOn_le_parties side teamId instrumentId sound.shape
    advances between
  let parties := partiesOn venue next side teamId instrumentId
  let before := fun order : Order =>
    order.quantity -
      tradedQuantity order.orderId venue.market.heap.trades
  have stillOpen : next.openQuantity side teamId instrumentId ≤
      ∑ order ∈ parties, next.market.heap.remaining order := by
    apply Finset.sum_le_sum_of_subset_of_nonneg
    · intro order member
      rcases Finset.mem_filter.mp member with ⟨_, isOn, live⟩
      exact mem_partiesOn sound.shape advances
        (advances.2.live order
          (ExchangeVenue.live_of_mem_liveOrders live)) isOn
    · intro order member _
      exact (nextSound.market.fillable order
        (List.mem_toFinset.mp (Finset.mem_filter.mp member).1)).nonnegative
  have split : ∑ order ∈ parties,
        (next.market.heap.remaining order +
          tradedQuantity order.orderId made) =
      ∑ order ∈ parties, before order := by
    apply Finset.sum_congr rfl
    intro order member
    have accounted := nextSound.market.accounted order
      (List.mem_toFinset.mp (Finset.mem_filter.mp member).1)
    rw [recorded, tradedQuantity_append] at accounted
    show _ = order.quantity - _
    linarith
  have old := sum_parties_old side teamId instrumentId sound next
  have new := sum_parties_new side teamId instrumentId sound step whole
  have all := Finset.sum_filter_add_sum_filter_not parties
    (fun order => order ∈ venue.market.heap.orders) before
  rw [Finset.sum_add_distrib, ← all] at split
  rw [recorded, tradedOn_append]
  linarith

/-- The same for a run. -/
theorem openQuantity_run {calls : List VenueCall}
    (sound : VenueSound venue) (run : Run VenueStep venue calls next)
    (whole : ∀ call ∈ calls, call.WholeQuantity) :
    next.openQuantity side teamId instrumentId +
        tradedOn side teamId instrumentId next.market.heap.trades ≤
      venue.openQuantity side teamId instrumentId +
          tradedOn side teamId instrumentId venue.market.heap.trades +
        submittedOn side teamId instrumentId calls := by
  induction run with
  | refl => exact (add_zero _).ge
  | @snoc middle finish calls call init last induction =>
      have earlier := fun call member =>
        whole call (List.mem_append_left _ member)
      have final := whole call
        (List.mem_append_right _ (List.mem_singleton_self _))
      have reached := VenueSound.of_run sound init earlier
      have before := induction earlier
      have after := openQuantity_step side teamId instrumentId reached
        (venueStep_sound reached final last) last final
      have calls_eq :
          submittedOn side teamId instrumentId (calls ++ [call]) =
            submittedOn side teamId instrumentId calls +
              call.quantityOn side teamId instrumentId := by
        simp [submittedOn]
      rw [calls_eq]
      linarith

theorem ExchangeVenue.openQuantity_new (cached baseline : PhaseState) :
    (ExchangeVenue.new cached baseline).openQuantity side teamId
      instrumentId = 0 := by
  rw [openQuantity, openOrders]
  show ∑ order ∈ Finset.filter _ ∅, _ = (0 : ℚ)
  rw [Finset.filter_empty, Finset.sum_empty]

theorem ExchangeVenue.openQuantity_nonneg (sound : VenueSound venue) :
    0 ≤ venue.openQuantity side teamId instrumentId := by
  apply Finset.sum_nonneg
  intro order member
  exact (sound.market.fillable order
    (List.mem_toFinset.mp (Finset.mem_filter.mp member).1)).nonnegative

end Step

end InternTradingGame
