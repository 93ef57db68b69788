import InternTradingGame.Exchange.Forgetting
import InternTradingGame.Exchange.Identity
import InternTradingGame.Exchange.Interference
import InternTradingGame.Exchange.MarketMoves

/-!
# Orders which are told apart by their ids

An id which the venue has forgotten may be used again, by a new order or by
an object which comes back with a part of its quantity left.  `SeparateStep`
asks one thing only: the order which used the id before has left the venue,
so that the ids tell the orders in the venue apart.  It takes a batch which
raised halfway to leave an order behind whose id the venue has forgotten.

A venue which such a run reaches shows the same as one in which no id has
been used twice.
-/

namespace InternTradingGame

open Effects

/-! ## Runs -/

/-- An order in the venue has an id which is stored there. -/
theorem ExchangeVenue.mem_storedIds {venue : ExchangeVenue}
    {order : Order} (live : venue.Live order) :
    order.orderId ∈ venue.storedIds := by
  rcases live with ⟨instrumentId, book, found, member⟩ | pending
  · apply List.mem_append_left
    exact List.mem_flatMap.mpr
      ⟨(instrumentId, book),
        (venue.market.orderBooks.get?_eq_some_iff _ _).mp found,
        List.mem_map_of_mem member⟩
  · apply List.mem_append_right
    exact List.mem_map_of_mem (ExchangeVenue.mem_of_pending pending)

/-- A stored id is the id of an order in the venue. -/
theorem ExchangeVenue.live_of_stored {venue : ExchangeVenue}
    {orderId : String} (stored : orderId ∈ venue.storedIds) :
    ∃ order, venue.Live order ∧ order.orderId = orderId := by
  rcases List.mem_append.mp stored with resting | pending
  · rcases List.mem_flatMap.mp resting with ⟨entry, listed, inBook⟩
    rcases List.mem_map.mp inBook with ⟨order, member, equal⟩
    have found := (venue.market.orderBooks.get?_eq_some_iff _ _).mpr listed
    exact ⟨order, Or.inl ⟨entry.1, entry.2, found, member⟩, equal⟩
  · rcases List.mem_map.mp pending with ⟨order, member, equal⟩
    exact ⟨order, Or.inr (ExchangeVenue.pending_of_mem member), equal⟩

/--
An object which the venue takes in has something left, and no order in the
venue has its id.
-/
def ObjectCall.Separate : ObjectCall → ExchangeVenue → Prop
  | .submitObject order left, venue =>
      order.orderId ∉ venue.allOrderIds →
        (0 < left ∧ left ≤ order.quantity) ∧
          order.orderId ∉ venue.storedIds
  | .operation (.submitOrder order), venue =>
      order.orderId ∉ venue.allOrderIds →
        order.orderId ∉ venue.storedIds
  | .operation _, _ => True

instance (call : ObjectCall) (venue : ExchangeVenue) :
    Decidable (call.Separate venue) := by
  rcases call
  case submitObject order left =>
      exact inferInstanceAs
        (Decidable (order.orderId ∉ venue.allOrderIds →
          (0 < left ∧ left ≤ order.quantity) ∧
            order.orderId ∉ venue.storedIds))
  case operation call =>
      rcases call
      case submitOrder order =>
          exact inferInstanceAs
            (Decidable (order.orderId ∉ venue.allOrderIds →
              order.orderId ∉ venue.storedIds))
      all_goals exact inferInstanceAs (Decidable True)

/-- One call, with any quantities, whose ids tell the orders apart. -/
abbrev SeparateStep : ExchangeVenue → ObjectCall → ExchangeVenue → Prop :=
  GuardedStep ObjectCall.Separate ObjectCall.execute

/-! ## What is left of the orders -/

/-- What is left of every order taken in has the property. -/
structure VenueLeaves (holds : ℚ → Prop) (venue : ExchangeVenue) :
    Prop where
  shape : VenueShape venue
  left : ∀ order ∈ venue.market.heap.orders,
    holds (venue.market.heap.remaining order)

/-- A trade of no more than there is keeps the property. -/
def StaysAfterTrades (holds : ℚ → Prop) : Prop :=
  ∀ (trade : Trade) (left : ℚ),
    holds left → trade.quantity ≤ left → holds (left - trade.quantity)

/-- What the call has left of the order it submits has the property. -/
def ObjectCall.Brings (holds : ℚ → Prop) :
    ObjectCall → ExchangeVenue → Prop
  | .submitObject order left, venue =>
      order.orderId ∉ venue.allOrderIds → holds left
  | .operation (.submitOrder order), _ => holds order.quantity
  | .operation _, _ => True

section Leaves

variable {holds : ℚ → Prop} {market after : Market}
  {venue : ExchangeVenue} {order : Order} {left : ℚ}

/-- The moves of the market keep what is left of the orders taken in. -/
theorem MarketMoves.leaves (stays : StaysAfterTrades holds)
    (shape : MarketShape market)
    (start : ∀ order ∈ market.heap.orders,
      holds (market.heap.remaining order))
    (moves : MarketMoves market after) :
    ∀ order ∈ market.heap.orders, holds (after.heap.remaining order) := by
  have kept := (MarketMoves.keeps
    (fun reached => ∀ order ∈ market.heap.orders,
      order ∈ reached.heap.orders ∧ holds (reached.heap.remaining order))
    ?_ shape (fun order taken => ⟨taken, start order taken⟩) moves).2
  · exact fun order taken => (kept order taken).2
  · intro before reached beforeShape held move order taken
    have facts := held order taken
    cases move.heap beforeShape with
    | quiet same => exact same ▸ facts
    | allocate fresh equal =>
        rw [equal]
        refine ⟨List.mem_append_left _ facts.1, ?_⟩
        rw [Heap.remaining_allocate_ne _ (fresh order facts.1)]
        exact facts.2
    | @trade trade spends =>
        refine ⟨spends.orders ▸ facts.1, ?_⟩
        rw [Heap.remaining, spends.accounts, tradedQuantity_singleton]
        split_ifs with names
        · exact stays trade _ facts.2 (spends.enough _ names)
        · rw [sub_zero]
          exact facts.2

theorem VenueLeaves.new (holds : ℚ → Prop)
    (cached baseline : PhaseState) :
    VenueLeaves holds (ExchangeVenue.new cached baseline) where
  shape := VenueShape.new cached baseline
  left _ taken := nomatch taken

/-- A new object is registered with what is left of it. -/
theorem VenueLeaves.registerObject (leaves : VenueLeaves holds venue)
    (fresh : ∀ taken ∈ venue.market.heap.orders,
      taken.orderId ≠ order.orderId)
    (own : holds left) :
    VenueLeaves holds (venue.registerObject order left) where
  shape :=
    ExchangeVenue.setLeft_shape (register_shape leaves.shape fresh)
  left := by
    intro other member
    rcases List.mem_append.mp member with old | new
    · rw [ExchangeVenue.remaining_registerObject_ne (fresh other old)]
      exact leaves.left other old
    · rw [List.mem_singleton.mp new,
        ExchangeVenue.remaining_registerObject_self]
      exact own

/-- The engine trades on the registered object. -/
theorem VenueLeaves.engine (stays : StaysAfterTrades holds)
    (registered :
      VenueLeaves holds (venue.registerObject order left))
    (listed : venue.market.orderBooks.Contains order.instrumentId) :
    Ends (ContinuousMatchingEngine.submitOrder order)
      (venue.registerObject order left).market
      (fun _ after => VenueLeaves holds
        { venue.registerObject order left with market := after })
      (fun _ after => VenueLeaves holds
        { venue.registerObject order left with market := after }) := by
  rcases (OrderedDict.contains_iff_exists _ _).mp listed with ⟨book, found⟩
  have taken : order ∈
      (venue.registerObject order left).market.heap.orders :=
    registered_mem
  have trades := continuous_submitOrder_ends registered.shape.market found
    taken
  have moves := continuous_submitOrder_moves registered.shape.market found
    taken
  have kept : ∀ {after : Market} {made : List Trade}
      {parties : Order → Prop}, MarketShape after →
      Trading parties (venue.registerObject order left).market made
        after →
      MarketMoves (venue.registerObject order left).market after →
      VenueLeaves holds
        { venue.registerObject order left with market := after } := by
    intro after made parties shape trading moved
    refine ⟨registered.shape.setMarket shape trading.keys trading.orders,
      ?_⟩
    intro other member
    rw [trading.orders] at member
    exact moved.leaves stays registered.shape.market registered.left other
      member
  refine (trades.and moves).mono ?_ ?_
  · rintro result after ⟨⟨_, _, shape, trading⟩, moved⟩
    exact kept shape trading moved
  · rintro exception after ⟨⟨shape, made, trading⟩, moved⟩
    exact kept shape trading moved

theorem VenueLeaves.collected
    (registered :
      VenueLeaves holds (venue.registerObject order left)) :
    VenueLeaves holds
      { venue.registerObject order left with
        pendingOrders :=
          BatchMatchingEngine.collect
            (venue.registerObject order left).pendingOrders order } where
  shape :=
    { market := registered.shape.market
      instruments := registered.shape.instruments
      pending := by
        intro instrumentId orders found candidate member
        rcases get?_collect found candidate member with
          ⟨rfl, same⟩ | ⟨old, stored, inOld⟩
        · exact ⟨same.symm, registered_mem⟩
        · exact registered.shape.pending instrumentId old stored candidate
            inOld }
  left := registered.left

/-- Submitting an object with an id which has not been used before. -/
theorem VenueLeaves.submitObject (leaves : VenueLeaves holds venue)
    (stays : StaysAfterTrades holds)
    (allowed : (VenueCall.submitOrder order).Allowed venue)
    (own : order.orderId ∉ venue.allOrderIds → holds left) :
    VenueLeaves holds
      (finalState (ExchangeVenue.submitObject order left venue)) := by
  apply finalState_of_ends
  rw [ExchangeVenue.submitObject, ends_get_bind]
  cases venue.currentPhaseState.isOrderSubmissionAllowed with
  | false => exact leaves
  | true =>
      simp only [Bool.not_true, Bool.false_eq_true, if_false]
      by_cases listed :
          venue.market.orderBooks.Contains order.instrumentId
      · rw [if_neg (not_not.mpr listed)]
        by_cases known : order.orderId ∈ venue.allOrderIds
        · rw [if_pos known]
          exact leaves
        · rw [if_neg known]
          have registered := leaves.registerObject
            (fun taken member equal => known (allowed taken member equal))
            (own known)
          cases venue.shouldUseBatchEngine with
          | true => exact registered.collected
          | false =>
              exact Ends.zoom (VenueLeaves.engine stays registered listed)
      · rw [if_pos listed]
        exact leaves

/-- A call which is no submission takes no order in. -/
theorem VenueLeaves.quiet (leaves : VenueLeaves holds venue)
    (stays : StaysAfterTrades holds) {call : VenueCall}
    (quiet : ∀ order, call ≠ .submitOrder order)
    (allowed : call.Allowed venue) :
    VenueLeaves holds (call.execute venue) := by
  have step : VenueStep venue call (call.execute venue) := ⟨allowed, rfl⟩
  refine ⟨(venueStep_advances leaves.shape step).1, ?_⟩
  intro order member
  have taken := execute_taken_of_quiet leaves.shape quiet
  rw [taken] at member
  exact (venueStep_moves leaves.shape step).leaves stays
    leaves.shape.market leaves.left order member

theorem VenueLeaves.execute (leaves : VenueLeaves holds venue)
    (stays : StaysAfterTrades holds) {call : ObjectCall}
    (fresh : call.Fresh venue) (brings : call.Brings holds venue) :
    VenueLeaves holds (call.execute venue) := by
  cases call with
  | submitObject order left => exact leaves.submitObject stays fresh brings
  | operation call =>
      by_cases submits : ∃ order, call = .submitOrder order
      · rcases submits with ⟨order, rfl⟩
        have submitted := leaves.submitObject stays fresh fun _ => brings
        rw [ExchangeVenue.submitObject_quantity] at submitted
        exact submitted
      · exact leaves.quiet stays
          (fun order same => submits ⟨order, same⟩) fresh

end Leaves

/-! ## What every such run keeps -/

/-- No order is overfilled in the venue. -/
abbrev VenueSolvent : ExchangeVenue → Prop :=
  VenueLeaves (0 ≤ ·)

theorem solvent_stays : StaysAfterTrades (0 ≤ ·) :=
  fun _ _ _ enough => sub_nonneg.mpr enough

/-- The venue shows the same as one in which no id has been used twice. -/
def ShowsSolvent (venue : ExchangeVenue) : Prop :=
  ∃ clean, VenueSolvent clean ∧ SameRecords clean venue

section Keeps

variable {venue clean : ExchangeVenue} {order : Order} {left : ℚ}

/-- The objects of a run have something left. -/
theorem ObjectCall.Possible.brings {call : ObjectCall}
    (possible : call.Possible venue) : call.Brings (0 ≤ ·) venue := by
  cases call with
  | submitObject order left => exact fun unknown => (possible unknown).1.le
  | operation call =>
      cases call with
      | submitOrder order => exact order.quantity_positive.le
      | _ => trivial

theorem SameRecords.live_iff (same : SameRecords clean venue) :
    clean.Live order ↔ venue.Live order := by
  rw [same.eq_withOrders]
  exact Iff.rfl

theorem ObjectCall.Separate.unused {call : ObjectCall} {orderId : String}
    (separate : call.Separate venue) (submits : call.Submits orderId)
    (unknown : orderId ∉ venue.allOrderIds) :
    orderId ∉ venue.storedIds := by
  cases call with
  | submitObject order left =>
      rcases submits with rfl
      exact (separate unknown).2
  | operation call =>
      cases call with
      | submitOrder order =>
          rcases submits with rfl
          exact separate unknown
      | _ => exact absurd submits id

theorem ObjectCall.Separate.possible {call : ObjectCall}
    (separate : call.Separate venue) : call.Possible venue := by
  cases call with
  | submitObject order left => exact fun unknown => (separate unknown).1
  | operation call => trivial

/-- The id of an order which has left the venue can be forgotten. -/
theorem ShowsSolvent.fresh (shows : ShowsSolvent venue) {call : ObjectCall}
    (separate : call.Separate venue) :
    ∃ clean, VenueSolvent clean ∧ SameRecords clean venue ∧
      call.Fresh clean := by
  rcases shows with ⟨clean, solvent, same⟩
  apply same.freshen solvent
  intro orderId submits unknown
  have absent := separate.unused submits (same.allOrderIds ▸ unknown)
  constructor
  · apply solvent.shape.forget
    intro other live equal
    exact absent
      (equal ▸ ExchangeVenue.mem_storedIds (same.live_iff.mp live))
  · exact fun other member => solvent.left other (mem_forget.mp member).1

/-- Every run keeps the venue like one in which no id is used twice. -/
theorem ShowsSolvent.of_run {cached baseline : PhaseState}
    {calls : List ObjectCall}
    (run :
      Run SeparateStep (ExchangeVenue.new cached baseline) calls venue) :
    ShowsSolvent venue := by
  apply run.invariant ShowsSolvent
  · exact ⟨_, VenueLeaves.new _ cached baseline,
      SameRecords.refl (VenueShape.new cached baseline)⟩
  · rintro before call after shows ⟨separate, rfl⟩
    rcases shows.fresh separate with ⟨clean, solvent, same, fresh⟩
    exact ⟨call.execute clean,
      solvent.execute solvent_stays fresh
        (same.possible separate.possible).brings,
      (same.step call).2⟩

end Keeps

end InternTradingGame
