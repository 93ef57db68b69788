import InternTradingGame.Exchange.Engines
import InternTradingGame.Exchange.Venue
import InternTradingGame.Library.Runs

/-!
# Runs of the venue

A run calls the operations of the venue in any order, with any phases, any
tie-breaks and any quantities.  `VenueShape` holds in every state of every
run, also after calls which raised, and `VenueProgress` says what a single
call can do: it trades only orders which were live before or which it takes
in itself, and only these are live afterwards.
-/

namespace InternTradingGame

open Effects

/-! ## Calls and runs -/

/-- A call of an operation of the venue. -/
inductive VenueCall where
  | listInstrument (instrument : Instrument)
  | submitOrder (order : Order)
  | cancelOrder (orderId traderId : String)
  | executeBatch (draw : String → ℚ)
  | executeOpeningAuction (draw : String → ℚ)
  | cancelAllOrders
  | checkPhaseTransitions (observed : PhaseState) (draw : String → ℚ)

namespace VenueCall

/-- The venue a call leaves, whether it returns or raises. -/
def execute : VenueCall → ExchangeVenue → ExchangeVenue
  | .listInstrument instrument, venue =>
      finalState (ExchangeVenue.listInstrument instrument venue)
  | .submitOrder order, venue =>
      finalState (ExchangeVenue.submitOrder order venue)
  | .cancelOrder orderId traderId, venue =>
      finalState (ExchangeVenue.cancelOrder orderId traderId venue)
  | .executeBatch draw, venue =>
      finalState (ExchangeVenue.executeBatch draw venue)
  | .executeOpeningAuction draw, venue =>
      finalState (ExchangeVenue.executeOpeningAuction draw venue)
  | .cancelAllOrders, venue =>
      finalState (ExchangeVenue.cancelAllOrders venue)
  | .checkPhaseTransitions observed draw, venue =>
      finalState
        (ExchangeVenue.checkPhaseTransitions observed draw venue)

/--
An id stands for one order.  Submitting it again is allowed as long as the
venue knows it, and then refuses it.
-/
def Allowed : VenueCall → ExchangeVenue → Prop
  | .submitOrder order, venue =>
      ∀ taken ∈ venue.market.heap.orders,
        taken.orderId = order.orderId →
          order.orderId ∈ venue.allOrderIds
  | _, _ => True

instance (call : VenueCall) (venue : ExchangeVenue) :
    Decidable (call.Allowed venue) := by
  rcases call
  case submitOrder order =>
      exact inferInstanceAs
        (Decidable (∀ taken ∈ venue.market.heap.orders,
          taken.orderId = order.orderId →
            order.orderId ∈ venue.allOrderIds))
  all_goals exact inferInstanceAs (Decidable True)

end VenueCall

/-- One call. -/
abbrev VenueStep : ExchangeVenue → VenueCall → ExchangeVenue → Prop :=
  GuardedStep VenueCall.Allowed VenueCall.execute

/-! ## Runs used in examples -/

namespace Sample

/-- The venue of an exchange which starts before the first day. -/
def closedVenue : ExchangeVenue :=
  ExchangeVenue.new (PhaseState.default .closed)
    (PhaseState.default .closed)

/-- An order submitted before the opening. -/
def preOpenCalls : List VenueCall :=
  [ .checkPhaseTransitions (PhaseState.default .preOpen) fun _ => 0,
    .listInstrument { symbol := "CALL" },
    .submitOrder sellTen ]

/-- An order submitted while the continuous market is open. -/
def continuousCalls : List VenueCall :=
  [ .checkPhaseTransitions (PhaseState.default .continuous) fun _ => 0,
    .listInstrument { symbol := "CALL" },
    .submitOrder sellTen ]

end Sample

/-! ## The shape of a venue -/

namespace ExchangeVenue

/-- The batch engine has collected the order. -/
def Pending (venue : ExchangeVenue) (order : Order) : Prop :=
  ∃ instrumentId orders,
    venue.pendingOrders.get? instrumentId = some orders ∧
      order ∈ orders

/-- The order rests in a book or waits for the auction. -/
def Live (venue : ExchangeVenue) (order : Order) : Prop :=
  venue.market.Rests order ∨ venue.Pending order

end ExchangeVenue

/-- What holds of a venue whatever the quantities of its orders are. -/
structure VenueShape (venue : ExchangeVenue) : Prop where
  market : MarketShape venue.market
  instruments : ∀ instrumentId,
    venue.market.orderBooks.Contains instrumentId →
      venue.instruments.Contains instrumentId
  pending : ∀ instrumentId orders,
    venue.pendingOrders.get? instrumentId = some orders →
      ∀ order ∈ orders, order.instrumentId = instrumentId ∧
        order ∈ venue.market.heap.orders

namespace VenueShape

variable {venue : ExchangeVenue}

theorem new (cached baseline : PhaseState) :
    VenueShape (ExchangeVenue.new cached baseline) where
  market :=
    { books := by simp [ExchangeVenue.new]
      named := by simp [ExchangeVenue.new]
      registered := by
        rintro order ⟨instrumentId, book, found, _⟩
        simp [ExchangeVenue.new] at found
      distinct := List.nodup_nil }
  instruments := by
    intro instrumentId contains
    rw [OrderedDict.contains_iff_exists] at contains
    simp [ExchangeVenue.new] at contains
  pending := by simp [ExchangeVenue.new]

theorem live_taken (shape : VenueShape venue) {order : Order}
    (live : venue.Live order) : order ∈ venue.market.heap.orders := by
  rcases live with rests | ⟨instrumentId, orders, found, member⟩
  · exact shape.market.registered order rests
  · exact (shape.pending instrumentId orders found order member).2

/-- Another market with the same instruments and the same orders. -/
theorem setMarket (shape : VenueShape venue) {market : Market}
    (after : MarketShape market)
    (keys : market.orderBooks.keys = venue.market.orderBooks.keys)
    (orders : market.heap.orders = venue.market.heap.orders) :
    VenueShape { venue with market := market } where
  market := after
  instruments := by
    intro instrumentId contains
    apply shape.instruments
    change market.orderBooks.Contains instrumentId at contains
    rw [OrderedDict.Contains, keys] at contains
    exact contains
  pending := by
    intro instrumentId collected found order member
    have facts := shape.pending instrumentId collected found order member
    exact ⟨facts.1, orders ▸ facts.2⟩

/-- Only the books, the instruments and the collected orders matter. -/
theorem congr {other : ExchangeVenue} (shape : VenueShape venue)
    (market : other.market = venue.market)
    (instruments : other.instruments = venue.instruments)
    (pending : other.pendingOrders = venue.pendingOrders) :
    VenueShape other where
  market := market ▸ shape.market
  instruments := by
    rw [market, instruments]
    exact shape.instruments
  pending := by
    rw [market, pending]
    exact shape.pending

end VenueShape

/-! ## What a call can do -/

/-- The orders a call may trade. -/
def VenueParty (venue next : ExchangeVenue) (order : Order) : Prop :=
  venue.Live order ∨
    order ∈ next.market.heap.orders ∧
      order ∉ venue.market.heap.orders

/-- A call takes orders in and trades live orders. -/
structure VenueProgress (venue next : ExchangeVenue) : Prop where
  orders : venue.market.heap.orders ⊆ next.market.heap.orders
  trades : ∃ made,
    next.market.heap.trades = venue.market.heap.trades ++ made ∧
      ∀ trade ∈ made, ∃ buy sell,
        VenueParty venue next buy ∧ VenueParty venue next sell ∧
          TradeBetween trade buy sell
  live : ∀ order, next.Live order → VenueParty venue next order

namespace VenueProgress

variable {venue next : ExchangeVenue}

/-- Nothing has been traded, and nothing has become live. -/
theorem of_live_subset (heap : next.market.heap = venue.market.heap)
    (live : ∀ order, next.Live order → venue.Live order) :
    VenueProgress venue next where
  orders := heap ▸ List.Subset.refl _
  trades := ⟨[], by simp [heap]⟩
  live order isLive := Or.inl (live order isLive)

/-- The orders of a set have been traded and no order has been taken in. -/
theorem of_trading {made : List Trade}
    (trading : Trading venue.Live venue.market made next.market)
    (pending : ∀ order, next.Pending order → venue.Live order) :
    VenueProgress venue next where
  orders := trading.orders ▸ List.Subset.refl _
  trades := by
    refine ⟨made, trading.recorded, ?_⟩
    intro trade member
    rcases trading.between trade member with
      ⟨buy, sell, buyLive, sellLive, between⟩
    exact ⟨buy, sell, Or.inl buyLive, Or.inl sellLive, between⟩
  live := by
    rintro order (rests | isPending)
    · exact Or.inl (trading.rests order rests)
    · exact Or.inl (pending order isPending)

end VenueProgress

/-- What every call does to a well-formed venue. -/
def Advances (venue next : ExchangeVenue) : Prop :=
  VenueShape next ∧ VenueProgress venue next

theorem Advances.refl {venue : ExchangeVenue} (shape : VenueShape venue) :
    Advances venue venue :=
  ⟨shape, VenueProgress.of_live_subset rfl fun _ live => live⟩

/-! ### Listing an instrument -/

/-- The market with the empty book of a new instrument. -/
def Market.listing (market : Market) (symbol : String) : Market :=
  { market with
    orderBooks := market.orderBooks.set symbol (OrderBook.new symbol) }

theorem Market.get?_listing {market : Market}
    {symbol instrumentId : String} {book : OrderBook}
    (found :
      (market.listing symbol).orderBooks.get? instrumentId = some book) :
    instrumentId = symbol ∧ book = OrderBook.new symbol ∨
      market.orderBooks.get? instrumentId = some book := by
  rw [Market.listing, OrderedDict.get?_set] at found
  by_cases same : instrumentId = symbol
  · rw [if_pos same] at found
    exact Or.inl ⟨same, (Option.some.inj found).symm⟩
  · rw [if_neg same] at found
    exact Or.inr found

theorem Market.rests_listing {market : Market} {symbol : String}
    {order : Order} (rests : (market.listing symbol).Rests order) :
    market.Rests order := by
  rcases rests with ⟨instrumentId, book, found, member⟩
  rcases Market.get?_listing found with ⟨_, rfl⟩ | listed
  · exact absurd member List.not_mem_nil
  · exact ⟨instrumentId, book, listed, member⟩

theorem MarketShape.listing {market : Market}
    (shape : MarketShape market) (symbol : String) :
    MarketShape (market.listing symbol) where
  books := by
    intro instrumentId book found
    rcases Market.get?_listing found with ⟨_, rfl⟩ | listed
    · exact BookShape.new symbol
    · exact shape.books instrumentId book listed
  named := by
    intro instrumentId book found
    rcases Market.get?_listing found with ⟨rfl, rfl⟩ | listed
    · rfl
    · exact shape.named instrumentId book listed
  registered order rests :=
    shape.registered order (Market.rests_listing rests)
  distinct := shape.distinct

/-- The venue once an instrument has been listed. -/
def ExchangeVenue.listed (venue : ExchangeVenue)
    (instrument : Instrument) : ExchangeVenue :=
  { venue with
    instruments := venue.instruments.set instrument.symbol instrument
    market := venue.market.listing instrument.symbol }

theorem listInstrument_apply (venue : ExchangeVenue)
    (instrument : Instrument) :
    ExchangeVenue.listInstrument instrument venue =
      if venue.instruments.Contains instrument.symbol then
        .error
          (.valueError
            ("Instrument with ID " ++ instrument.symbol ++
              " already exists"))
          venue
      else
        .ok ⟨⟩ (venue.listed instrument) := by
  rw [ExchangeVenue.listInstrument]
  simp only [bind_apply, get_apply, branch_apply, throw_apply, set_apply,
    ExchangeVenue.listed, Market.listing]

theorem listInstrument_ends {venue : ExchangeVenue}
    (shape : VenueShape venue) (instrument : Instrument) :
    Ends (ExchangeVenue.listInstrument instrument) venue
      (fun _ next =>
        Advances venue next ∧ next = venue.listed instrument)
      (fun _ next => next = venue) := by
  have evaluated := listInstrument_apply venue instrument
  by_cases known : venue.instruments.Contains instrument.symbol
  · rw [if_pos known] at evaluated
    exact Ends.of_error evaluated rfl
  · rw [if_neg known] at evaluated
    apply Ends.of_ok evaluated
    refine ⟨⟨?_, VenueProgress.of_live_subset rfl ?_⟩, rfl⟩
    · constructor
      · exact shape.market.listing instrument.symbol
      · intro instrumentId contains
        rw [ExchangeVenue.listed, Market.listing,
          OrderedDict.contains_set] at contains
        rw [ExchangeVenue.listed, OrderedDict.contains_set]
        exact contains.imp_right (shape.instruments instrumentId)
      · exact shape.pending
    · exact fun order live => live.imp_left Market.rests_listing

/-! ### Submitting an order -/

section Submit

variable {venue : ExchangeVenue} {order : Order}

/-- The market once an order object has been created. -/
def Market.allocate (market : Market) (order : Order) : Market :=
  { market with heap := market.heap.allocate order }

theorem MarketShape.allocate {market : Market} {order : Order}
    (shape : MarketShape market)
    (fresh : ∀ taken ∈ market.heap.orders,
      taken.orderId ≠ order.orderId) :
    MarketShape (market.allocate order) where
  books := shape.books
  named := shape.named
  registered candidate rests :=
    List.mem_append_left _ (shape.registered candidate rests)
  distinct := by
    show ((market.heap.orders ++ [order]).map Order.orderId).Nodup
    rw [List.map_append, List.nodup_append]
    refine ⟨shape.distinct, List.nodup_singleton _, ?_⟩
    intro taken takenMember other otherMember equal
    rcases List.mem_map.mp takenMember with ⟨old, oldMember, rfl⟩
    rw [List.map_cons, List.map_nil, List.mem_singleton] at otherMember
    exact fresh old oldMember (equal.trans otherMember)

/-- The venue takes in a new order. -/
theorem register_shape (shape : VenueShape venue)
    (fresh : ∀ taken ∈ venue.market.heap.orders,
      taken.orderId ≠ order.orderId) :
    VenueShape (venue.register order) where
  market := shape.market.allocate fresh
  instruments := shape.instruments
  pending := by
    intro instrumentId orders found candidate member
    have facts := shape.pending instrumentId orders found candidate member
    exact ⟨facts.1, List.mem_append_left _ facts.2⟩

theorem registered_mem :
    order ∈ (venue.register order).market.heap.orders :=
  List.mem_append_right _ (List.mem_singleton_self _)

/-- A program run after the registration of an order. -/
theorem advances_of_register
    (fresh : ∀ taken ∈ venue.market.heap.orders,
      taken.orderId ≠ order.orderId)
    {next : ExchangeVenue} {made : List Trade}
    (nextShape : VenueShape next)
    (trading :
      Trading (AddParties (venue.register order).market order)
        (venue.register order).market made next.market)
    (pending : ∀ candidate, next.Pending candidate →
      candidate = order ∨ venue.Pending candidate) :
    Advances venue next := by
  have orders :
      next.market.heap.orders =
        venue.market.heap.orders ++ [order] := trading.orders
  have isNew : VenueParty venue next order := by
    refine Or.inr ⟨?_, fun taken => fresh order taken rfl⟩
    rw [orders]
    exact List.mem_append_right _ (List.mem_singleton_self _)
  have parties : ∀ candidate,
      AddParties (venue.register order).market order candidate →
        VenueParty venue next candidate := by
    rintro candidate (rfl | rests)
    · exact isNew
    · exact Or.inl (Or.inl rests)
  refine ⟨nextShape, ?_, ⟨made, trading.recorded, ?_⟩, ?_⟩
  · rw [orders]
    exact List.subset_append_left _ _
  · intro trade member
    rcases trading.between trade member with
      ⟨buy, sell, buyParty, sellParty, between⟩
    exact ⟨buy, sell, parties buy buyParty, parties sell sellParty,
      between⟩
  · rintro candidate (rests | isPending)
    · exact parties candidate (trading.rests candidate rests)
    · rcases pending candidate isPending with rfl | old
      · exact isNew
      · exact Or.inl (Or.inr old)

/-- What is collected once one more order has been collected. -/
theorem get?_collect {pending : PendingOrders} {instrumentId : String}
    {orders : List Order}
    (found :
      (BatchMatchingEngine.collect pending order).get? instrumentId =
        some orders) :
    ∀ candidate ∈ orders,
      candidate = order ∧ instrumentId = order.instrumentId ∨
        ∃ old, pending.get? instrumentId = some old ∧
          candidate ∈ old := by
  intro candidate member
  rw [BatchMatchingEngine.collect, OrderedDict.get?_set] at found
  by_cases same : instrumentId = order.instrumentId
  · rw [if_pos same] at found
    rcases Option.some.inj found with rfl
    rcases List.mem_append.mp member with inOld | new
    · right
      cases stored : pending.get? order.instrumentId with
      | none =>
          rw [stored] at inOld
          exact absurd inOld List.not_mem_nil
      | some old =>
          rw [stored] at inOld
          exact ⟨old, same ▸ stored, inOld⟩
    · exact Or.inl ⟨List.mem_singleton.mp new, same⟩
  · rw [if_neg same] at found
    exact Or.inr ⟨orders, found, member⟩

/-- The venue takes the order in. -/
structure Takes (venue : ExchangeVenue) (order : Order) : Prop where
  allowed : venue.currentPhaseState.isOrderSubmissionAllowed = true
  listed : venue.market.orderBooks.Contains order.instrumentId
  unknown : order.orderId ∉ venue.allOrderIds
  fresh : ∀ taken ∈ venue.market.heap.orders,
    taken.orderId ≠ order.orderId

/-- The batch engine collects the order. -/
def ExchangeVenue.collected (venue : ExchangeVenue) (order : Order) :
    ExchangeVenue :=
  { venue.register order with
    pendingOrders :=
      BatchMatchingEngine.collect venue.pendingOrders order }

/-- The venue after the continuous engine has worked on the market. -/
def ExchangeVenue.submitted (venue : ExchangeVenue) (order : Order)
    (market : Market) : ExchangeVenue :=
  { venue.register order with market := market }

/-- How a submission which returns has ended. -/
inductive SubmitReturns (venue : ExchangeVenue) (order : Order) :
    OrderResult → ExchangeVenue → Prop where
  | refused
      (phase : venue.currentPhaseState.isOrderSubmissionAllowed = false) :
      SubmitReturns venue order (venue.phaseRejection order) venue
  | collected (takes : Takes venue order)
      (batch : venue.shouldUseBatchEngine = true) :
      SubmitReturns venue order (ExchangeVenue.pendingResult order)
        (venue.collected order)
  | matched {result : OrderResult} {market : Market}
      (takes : Takes venue order)
      (continuous : venue.shouldUseBatchEngine = false)
      (evaluates :
        ContinuousMatchingEngine.submitOrder order
          (venue.register order).market = .ok result market)
      (orderId : result.orderId = order.orderId)
      (accepted : result.status ≠ .rejected)
      (shape : MarketShape market)
      (trading :
        Trading (AddParties (venue.register order).market order)
          (venue.register order).market result.fills market) :
      SubmitReturns venue order result (venue.submitted order market)

/-- How a submission which raises has ended. -/
inductive SubmitRaises (venue : ExchangeVenue) (order : Order) :
    ExchangeVenue → Prop where
  | refused : SubmitRaises venue order venue
  | matched {market : Market} {exception : PyError}
      (takes : Takes venue order)
      (continuous : venue.shouldUseBatchEngine = false)
      (evaluates :
        ContinuousMatchingEngine.submitOrder order
          (venue.register order).market = .error exception market)
      (traded :
        Traded (AddParties (venue.register order).market order)
          (venue.register order).market market) :
      SubmitRaises venue order (venue.submitted order market)

theorem submitOrder_ends (shape : VenueShape venue)
    (allowed : (VenueCall.submitOrder order).Allowed venue) :
    Ends (ExchangeVenue.submitOrder order) venue
      (fun result next => SubmitReturns venue order result next)
      (fun _ next => SubmitRaises venue order next) := by
  rw [ExchangeVenue.submitOrder, ends_get_bind]
  cases phase : venue.currentPhaseState.isOrderSubmissionAllowed with
  | false => exact SubmitReturns.refused phase
  | true =>
      simp only [Bool.not_true, Bool.false_eq_true, if_false]
      by_cases listed :
          venue.market.orderBooks.Contains order.instrumentId
      · rw [if_neg (not_not.mpr listed)]
        by_cases known : order.orderId ∈ venue.allOrderIds
        · rw [if_pos known]
          exact SubmitRaises.refused
        · rw [if_neg known]
          have takes : Takes venue order :=
            ⟨phase, listed, known,
              fun taken member equal => known (allowed taken member equal)⟩
          have registered := register_shape shape takes.fresh
          cases engine : venue.shouldUseBatchEngine with
          | true => exact SubmitReturns.collected takes engine
          | false =>
              rcases (OrderedDict.contains_iff_exists _ _).mp listed with
                ⟨book, found⟩
              have ends := continuous_submitOrder_ends
                registered.market found registered_mem
              change Ends
                (ExchangeVenue.onMarket
                  (ContinuousMatchingEngine.submitOrder order))
                (venue.register order) _ _
              cases evaluated :
                  ContinuousMatchingEngine.submitOrder order
                    (venue.register order).market with
              | ok result market =>
                  rcases ends.elim_ok evaluated with
                    ⟨orderId, accepted, after, trading⟩
                  exact Ends.of_ok (zoom_ok evaluated)
                    (SubmitReturns.matched takes engine evaluated orderId
                      accepted after trading)
              | error exception market =>
                  exact Ends.of_error (zoom_error evaluated)
                    (SubmitRaises.matched takes engine evaluated
                      (ends.elim_error evaluated))
      · rw [if_pos listed]
        exact SubmitRaises.refused

theorem submitted_shape {market : Market} (shape : VenueShape venue)
    (fresh : ∀ taken ∈ venue.market.heap.orders,
      taken.orderId ≠ order.orderId)
    (after : MarketShape market) {made : List Trade}
    (trading :
      Trading (AddParties (venue.register order).market order)
        (venue.register order).market made market) :
    Advances venue (venue.submitted order market) := by
  have registered := register_shape shape fresh
  have nextShape : VenueShape (venue.submitted order market) :=
    registered.setMarket after trading.keys trading.orders
  exact advances_of_register fresh nextShape trading
    fun candidate pending => Or.inr pending

theorem collected_shape (shape : VenueShape venue)
    (fresh : ∀ taken ∈ venue.market.heap.orders,
      taken.orderId ≠ order.orderId) :
    Advances venue (venue.collected order) := by
  have registered := register_shape shape fresh
  have nextShape : VenueShape (venue.collected order) :=
    { market := registered.market
      instruments := registered.instruments
      pending := by
        intro instrumentId orders found candidate member
        rcases get?_collect found candidate member with
          ⟨rfl, same⟩ | ⟨old, stored, inOld⟩
        · exact ⟨same.symm, registered_mem⟩
        · exact registered.pending instrumentId old stored candidate
            inOld }
  apply advances_of_register fresh nextShape
  · exact Trading.refl fun candidate rests => Or.inr rests
  · rintro candidate ⟨instrumentId, orders, found, member⟩
    rcases get?_collect found candidate member with
      ⟨equal, _⟩ | ⟨old, stored, inOld⟩
    · exact Or.inl equal
    · exact Or.inr ⟨instrumentId, old, stored, inOld⟩

theorem SubmitReturns.advances {result : OrderResult}
    {next : ExchangeVenue} (shape : VenueShape venue)
    (returns : SubmitReturns venue order result next) :
    Advances venue next := by
  cases returns with
  | refused _ => exact Advances.refl shape
  | collected takes _ => exact collected_shape shape takes.fresh
  | matched takes _ _ _ _ after trading =>
      exact submitted_shape shape takes.fresh after trading

theorem SubmitRaises.advances {next : ExchangeVenue}
    (shape : VenueShape venue)
    (raises : SubmitRaises venue order next) :
    Advances venue next := by
  cases raises with
  | refused => exact Advances.refl shape
  | matched takes _ _ traded =>
      rcases traded with ⟨after, made, trading⟩
      exact submitted_shape shape takes.fresh after trading

end Submit

/-! ### Cancelling an order -/

section Cancel

variable {venue : ExchangeVenue}

/-- The books are well formed, and no two resting orders share an id. -/
structure OwnBooks (market : Market) : Prop where
  books : ∀ instrumentId book,
    market.orderBooks.get? instrumentId = some book → BookShape book
  distinct : ∀ first second, market.Rests first → market.Rests second →
    first.orderId = second.orderId → first = second

theorem MarketShape.ownBooks {market : Market}
    (shape : MarketShape market) : OwnBooks market where
  books := shape.books
  distinct first second firstRests secondRests equal :=
    shape.eq_of_orderId_eq (shape.registered first firstRests)
      (shape.registered second secondRests) equal

/-- The first book found is one in which the order rests. -/
theorem findOrder_eq_some {market : Market} (own : OwnBooks market)
    {orderId instrumentId : String} {order : Order}
    (found :
      ExchangeVenue.findOrder market orderId =
        some (instrumentId, order)) :
    ∃ book, market.orderBooks.get? instrumentId = some book ∧
      order ∈ book.resting ∧ order.orderId = orderId := by
  rcases List.exists_of_findSome?_eq_some found with ⟨entry, member, value⟩
  rcases Option.map_eq_some_iff.mp value with ⟨candidate, stored, equal⟩
  rcases Prod.mk.inj equal with ⟨rfl, rfl⟩
  have listed : market.orderBooks.get? entry.1 = some entry.2 :=
    (market.orderBooks.get?_eq_some_iff _ _).mpr member
  exact ⟨entry.2, listed,
    (getOrder_eq_some_iff (own.books _ _ listed) _ _).mp stored⟩

theorem findOrder_eq_none {market : Market} (own : OwnBooks market)
    {orderId : String}
    (missing : ExchangeVenue.findOrder market orderId = none) :
    ∀ order, market.Rests order → order.orderId ≠ orderId := by
  rintro order ⟨instrumentId, book, found, member⟩ equal
  have entry : (instrumentId, book) ∈ market.orderBooks.entries :=
    (market.orderBooks.get?_eq_some_iff _ _).mp found
  have unfound := List.findSome?_eq_none_iff.mp missing _ entry
  have stored : book.getOrder orderId = some order :=
    (getOrder_eq_some_iff (own.books _ _ found) _ _).mpr
      ⟨member, equal⟩
  rw [Option.map_eq_none_iff] at unfound
  exact Option.some_ne_none order (stored.symm.trans unfound)

/-- The venue lets the trader cancel the order. -/
structure Cancellable (venue : ExchangeVenue) (orderId traderId : String)
    (order : Order) : Prop where
  allowed : venue.currentPhaseState.isOrderCancellationAllowed = true
  known : orderId ∈ venue.allOrderIds
  rests : venue.market.Rests order
  orderId : order.orderId = orderId
  owner : order.traderId = traderId

/-- The venue once an order has been cancelled. -/
structure CancelledFrom (venue : ExchangeVenue) (order : Order)
    (next : ExchangeVenue) : Prop where
  market : CancelledIn venue.market order next.market
  rest : next =
    { venue with
      market := next.market
      allOrderIds := venue.allOrderIds.erase order.orderId }

/-- The venue without a resting order and without its id. -/
structure TakenOut (venue : ExchangeVenue) (order : Order)
    (next : ExchangeVenue) : Prop where
  takes : ∃ instrumentId book side,
    venue.market.orderBooks.get? instrumentId = some book ∧
      order ∈ book.restingOn side ∧
        next =
          { venue with
            market :=
              { venue.market with
                orderBooks :=
                  venue.market.orderBooks.set instrumentId
                    (book.takeOut venue.market.heap side order) }
            allOrderIds := venue.allOrderIds.erase order.orderId }

theorem TakenOut.cancelled {order : Order} {next : ExchangeVenue}
    (taken : TakenOut venue order next) (shape : VenueShape venue) :
    CancelledFrom venue order next := by
  rcases taken.takes with ⟨instrumentId, book, side, listed, onSide, rfl⟩
  exact ⟨cancelledIn_of_cancelled shape.market listed onSide
    (cancelled_takeOut (shape.market.books _ _ listed) onSide), rfl⟩

/-- The cancel of an order by its owner. -/
theorem cancelOrder_owned (own : OwnBooks venue.market)
    {instrumentId : String} {book : OrderBook} {order : Order}
    (phase : venue.currentPhaseState.isOrderCancellationAllowed = true)
    (known : order.orderId ∈ venue.allOrderIds)
    (found :
      ExchangeVenue.findOrder venue.market order.orderId =
        some (instrumentId, order))
    (listed : venue.market.orderBooks.get? instrumentId = some book)
    (member : order ∈ book.resting) :
    ∃ next,
      ExchangeVenue.cancelOrder order.orderId order.traderId venue =
          .ok true next ∧
        TakenOut venue order next := by
  rcases OrderBook.exists_side member with ⟨side, onSide⟩
  refine ⟨_, ?_,
    ⟨instrumentId, book, side, listed, onSide, rfl⟩⟩
  have evaluates := Market.onBook_ok listed
    (@cancelOrder_takesOut ⟨venue.market.heap, book⟩ _ _
      (own.books _ _ listed) onSide)
  have zoomed : ExchangeVenue.onMarket
      (Market.onBook instrumentId
        (OrderBook.cancelOrder order.orderId)) venue = _ :=
    zoom_ok evaluates
  simp [ExchangeVenue.cancelOrder, phase, known, found, zoomed,
    Market.withBook]

/-- A cancel takes out a resting order of the trader, or does nothing. -/
theorem cancelOrder_evaluates (own : OwnBooks venue.market)
    (orderId traderId : String) :
    (∃ order next, Cancellable venue orderId traderId order ∧
        ExchangeVenue.cancelOrder orderId traderId venue =
          .ok true next ∧
        TakenOut venue order next) ∨
      (∀ order, ¬ Cancellable venue orderId traderId order) ∧
        (ExchangeVenue.cancelOrder orderId traderId venue =
            .ok false venue ∨
          ∃ message,
            ExchangeVenue.cancelOrder orderId traderId venue =
              .error (.valueError message) venue) := by
  by_cases phase :
      venue.currentPhaseState.isOrderCancellationAllowed = true
  · by_cases known : orderId ∈ venue.allOrderIds
    · cases found : ExchangeVenue.findOrder venue.market orderId with
      | none =>
          refine Or.inr ⟨?_, Or.inl ?_⟩
          · intro order cancellable
            exact findOrder_eq_none own found order
              cancellable.rests cancellable.orderId
          · simp [ExchangeVenue.cancelOrder, phase, known, found]
      | some place =>
          rcases place with ⟨instrumentId, order⟩
          rcases findOrder_eq_some own found with ⟨book, listed, member, rfl⟩
          by_cases owner : order.traderId = traderId
          · subst owner
            rcases cancelOrder_owned own phase known found listed member with
              ⟨next, evaluates, taken⟩
            exact Or.inl ⟨order, next,
              ⟨phase, known, ⟨_, book, listed, member⟩, rfl, rfl⟩,
              evaluates, taken⟩
          · refine Or.inr ⟨?_, Or.inr
              ⟨"Trader " ++ traderId ++ " does not own order " ++
                order.orderId, ?_⟩⟩
            · intro other cancellable
              have same : other = order :=
                own.distinct _ _ cancellable.rests
                  ⟨_, book, listed, member⟩ cancellable.orderId
              exact owner (same ▸ cancellable.owner)
            · simp [ExchangeVenue.cancelOrder, phase, known, found, owner]
    · refine Or.inr ⟨fun order cancellable => known cancellable.known,
        Or.inl ?_⟩
      simp [ExchangeVenue.cancelOrder, phase, known]
  · refine Or.inr ⟨fun order cancellable => phase cancellable.allowed,
      Or.inl ?_⟩
    simp [ExchangeVenue.cancelOrder, phase]

/-- A cancel succeeds for a resting order of the trader, or does nothing. -/
theorem cancelOrder_cases_venue (shape : VenueShape venue)
    (orderId traderId : String) :
    (∃ order next, Cancellable venue orderId traderId order ∧
        ExchangeVenue.cancelOrder orderId traderId venue =
          .ok true next ∧
        CancelledFrom venue order next) ∨
      (∀ order, ¬ Cancellable venue orderId traderId order) ∧
        (ExchangeVenue.cancelOrder orderId traderId venue =
            .ok false venue ∨
          ∃ exception,
            ExchangeVenue.cancelOrder orderId traderId venue =
              .error exception venue) := by
  rcases cancelOrder_evaluates shape.market.ownBooks orderId
      traderId with
    ⟨order, next, cancellable, evaluates, taken⟩ |
      ⟨none, evaluates | ⟨message, evaluates⟩⟩
  · exact Or.inl ⟨order, next, cancellable, evaluates,
      taken.cancelled shape⟩
  · exact Or.inr ⟨none, Or.inl evaluates⟩
  · exact Or.inr ⟨none, Or.inr ⟨_, evaluates⟩⟩

end Cancel

end InternTradingGame
