import InternTradingGame.Exchange.BatchPlan
import InternTradingGame.Exchange.Forgetting

/-!
# Operations which fail

An operation which raises should leave the venue as it was.  The venue keeps
this promise for what it checks first: an unknown instrument, a known id, a
foreign order.  A trade of a part of a contract is refused by the constructor
of trades in the middle of a matching loop, after the id of the order has
been registered and earlier trades have been made.

What happens is decided by the quantities at the desk: a submission is safe
if all its trades are whole, a batch if all its trades are or if already the
first one is not.
-/

namespace InternTradingGame

open Effects

/-! ## What a failed operation leaves -/

/-- Books, quantities, trades, collected orders and ids are as they were. -/
structure LeftAlone (venue next : ExchangeVenue) : Prop where
  orderBooks : next.market.orderBooks = venue.market.orderBooks
  remaining : ∀ orderId,
    next.market.heap.remainingQuantity orderId =
      venue.market.heap.remainingQuantity orderId
  trades : next.market.heap.trades = venue.market.heap.trades
  pendingOrders : next.pendingOrders = venue.pendingOrders
  allOrderIds : next.allOrderIds = venue.allOrderIds

theorem LeftAlone.refl (venue : ExchangeVenue) :
    LeftAlone venue venue where
  orderBooks := rfl
  remaining _ := rfl
  trades := rfl
  pendingOrders := rfl
  allOrderIds := rfl

theorem leftAlone_observing {venue next : ExchangeVenue}
    {observed : PhaseState} :
    LeftAlone (venue.observing observed) next ↔ LeftAlone venue next :=
  ⟨fun alone => ⟨alone.orderBooks, alone.remaining, alone.trades,
      alone.pendingOrders, alone.allOrderIds⟩,
    fun alone => ⟨alone.orderBooks, alone.remaining, alone.trades,
      alone.pendingOrders, alone.allOrderIds⟩⟩

/-- If the program raises, it leaves the venue as it was. -/
def FailsAlone {α : Type} (program : VenueM α) (venue : ExchangeVenue) :
    Prop :=
  returned (program venue) = none →
    LeftAlone venue (finalState (program venue))

/-- If the call raises, it leaves the venue as it was. -/
def VenueCall.FailsUnchanged (call : VenueCall)
    (venue : ExchangeVenue) : Prop :=
  call.Raises venue → LeftAlone venue (call.execute venue)

/-- If the call raises, it leaves the venue as it was. -/
def ObjectCall.FailsUnchanged (call : ObjectCall)
    (venue : ExchangeVenue) : Prop :=
  call.Raises venue → LeftAlone venue (call.execute venue)

/-! ## When a call fails as it should -/

/-- The desk of an instrument, empty if the instrument is not listed. -/
def Market.desk (market : Market) (instrumentId : String) : Desk :=
  match market.orderBooks.get? instrumentId with
  | none => fun _ => []
  | some book => BookState.desk ⟨market.heap, book⟩

/-- The quantities an order is about to trade at the desk. -/
def ExchangeVenue.amounts (venue : ExchangeVenue) (order : Order)
    (left : ℚ) : List ℚ :=
  ((venue.market.desk order.instrumentId).met (order, left)).amounts

/-- An order which reaches its book trades whole contracts only. -/
def ExchangeVenue.SafeOrder (venue : ExchangeVenue) (order : Order)
    (left : ℚ) : Prop :=
  venue.currentPhaseState.isOrderSubmissionAllowed = true →
  order.orderId ∉ venue.allOrderIds →
  venue.shouldUseBatchEngine = false →
    ∀ amount ∈ venue.amounts order left, Whole amount

instance (venue : ExchangeVenue) (order : Order) (left : ℚ) :
    Decidable (venue.SafeOrder order left) := by
  unfold ExchangeVenue.SafeOrder
  infer_instance

/-- The batch trades whole contracts only, or none from the start. -/
def ExchangeVenue.SafeBatch (venue : ExchangeVenue)
    (draw : String → ℚ) : Prop :=
  Safe DeskEffect.Possible
    (batchPlan draw venue.market venue.pendingOrders)

instance (venue : ExchangeVenue) (draw : String → ℚ) :
    Decidable (venue.SafeBatch draw) :=
  inferInstanceAs (Decidable (Safe _ _))

/--
A new order which reaches its book trades whole contracts only, and so does
a batch, unless it cannot trade at all.
-/
def VenueCall.AtomicWhen : VenueCall → ExchangeVenue → Prop
  | .submitOrder order, venue => venue.SafeOrder order order.quantity
  | .executeBatch draw, venue =>
      venue.currentPhaseState.executionStyle = .batch →
        venue.SafeBatch draw
  | .executeOpeningAuction draw, venue => venue.SafeBatch draw
  | .checkPhaseTransitions observed draw, venue =>
      venue.lastPhase = some .preOpen →
      observed.phaseType = .openingAuction →
        venue.SafeBatch draw
  | _, _ => True

instance (call : VenueCall) (venue : ExchangeVenue) :
    Decidable (call.AtomicWhen venue) := by
  rcases call <;> unfold VenueCall.AtomicWhen <;> infer_instance

/-- The same of all calls, whatever is left of an order. -/
def ObjectCall.AtomicWhen : ObjectCall → ExchangeVenue → Prop
  | .submitObject order left, venue => venue.SafeOrder order left
  | .operation call, venue => call.AtomicWhen venue

instance (call : ObjectCall) (venue : ExchangeVenue) :
    Decidable (call.AtomicWhen venue) := by
  rcases call <;> unfold ObjectCall.AtomicWhen <;> infer_instance

/-! ## Fair venues -/

/-- What holds of a venue whose calls have all been atomic. -/
structure VenueFair (venue : ExchangeVenue) : Prop where
  shape : VenueShape venue
  market : MarketFair venue.market
  waits : PendingWait venue
  known : ∀ order, venue.Live order → order.orderId ∈ venue.allOrderIds

section Fair

variable {market after : Market} {venue next : ExchangeVenue}
  {order : Order}

theorem MarketFair.listing (fair : MarketFair market) (symbol : String) :
    MarketFair (market.listing symbol) where
  shape := fair.shape.listing symbol
  solvent := fair.solvent
  unspent order rests := fair.unspent order (Market.rests_listing rests)

/-- Resting orders may be taken out. -/
theorem MarketFair.fewer (fair : MarketFair market)
    (shape : MarketShape after) (heap : after.heap = market.heap)
    (rests : ∀ order, after.Rests order → market.Rests order) :
    MarketFair after where
  shape := shape
  solvent := heap ▸ fair.solvent
  unspent := by
    intro order stillRests
    rw [heap]
    exact fair.unspent order (rests order stillRests)

theorem MarketFair.allocate (fair : MarketFair market)
    (fresh : ∀ taken ∈ market.heap.orders,
      taken.orderId ≠ order.orderId) :
    MarketFair (market.allocate order) where
  shape := fair.shape.allocate fresh
  solvent := fair.solvent.move (.allocate fresh rfl)
  unspent := by
    intro other rests
    have taken := fair.shape.registered other rests
    show 0 < (market.heap.allocate order).remaining other
    rw [Heap.remaining_allocate_ne _ (fresh other taken)]
    exact fair.unspent other rests

namespace VenueFair

theorem new (cached baseline : PhaseState) :
    VenueFair (ExchangeVenue.new cached baseline) where
  shape := VenueShape.new cached baseline
  market :=
    { shape := (VenueShape.new cached baseline).market
      solvent := by simp [ExchangeVenue.new, Heap.Solvent, Heap.empty]
      unspent := by
        rintro order ⟨instrumentId, book, found, _⟩
        simp [ExchangeVenue.new] at found }
  waits := PendingWait.of_empty rfl
  known := (VenueSound.new cached baseline).known

theorem observing (fair : VenueFair venue) (observed : PhaseState) :
    VenueFair (venue.observing observed) where
  shape := observing_shape fair.shape observed
  market := fair.market
  waits := ⟨fair.waits.waiting, fair.waits.distinct⟩
  known := fair.known

/-- No collected order rests. -/
theorem apart (fair : VenueFair venue) (order : Order) :
    ¬ (venue.market.Rests order ∧ venue.Pending order) :=
  fun both => (fair.waits.waiting order both.2).away both.1

/-- The id of a collected order is not that of a resting one. -/
theorem pending_ne (fair : VenueFair venue) {other : Order}
    (rests : venue.market.Rests order) (pending : venue.Pending other) :
    other.orderId ≠ order.orderId := by
  intro equal
  have same := fair.shape.market.eq_of_orderId_eq
    (fair.shape.live_taken (Or.inr pending))
    (fair.shape.market.registered order rests) equal
  exact fair.apart order ⟨rests, same ▸ pending⟩

theorem listed (fair : VenueFair venue) {instrument : Instrument}
    (shape : VenueShape (venue.listed instrument)) :
    VenueFair (venue.listed instrument) where
  shape := shape
  market := fair.market.listing instrument.symbol
  waits := fair.waits.listed instrument
  known order live :=
    fair.known order (live.imp_left Market.rests_listing)

/-- An order has been registered, and has something left. -/
theorem registered (fair : VenueFair venue)
    (fresh : ∀ taken ∈ venue.market.heap.orders,
      taken.orderId ≠ order.orderId) :
    VenueFair (venue.register order) where
  shape := register_shape fair.shape fresh
  market := fair.market.allocate fresh
  waits :=
    ⟨fun other pending => (fair.waits.waiting other pending).register fresh,
      fair.waits.distinct⟩
  known other live := Finset.mem_insert_of_mem (fair.known other live)

theorem setLeft (fair : VenueFair venue) {left : ℚ}
    (positive : 0 < left) : VenueFair (venue.setLeft order left) := by
  have either : ∀ other : Order,
      (venue.setLeft order left).market.heap.remaining other = left ∨
        (venue.setLeft order left).market.heap.remaining other =
          venue.market.heap.remaining other := by
    intro other
    by_cases same : other.orderId = order.orderId
    · left
      show (venue.market.heap.setRemaining _ _).remainingQuantity _ = _
      rw [same]
      exact Heap.remainingQuantity_setRemaining_self _ _ _
    · exact Or.inr (Heap.remaining_setRemaining_ne _ _ same)
  have shape : VenueShape (venue.setLeft order left) :=
    ExchangeVenue.setLeft_shape fair.shape
  constructor
  · exact shape
  · refine ⟨shape.market, ?_, ?_⟩
    · intro other taken
      rcases either other with equal | equal
      · exact positive.le.trans_eq equal.symm
      · exact equal ▸ fair.market.solvent other taken
    · intro other rests
      rcases either other with equal | equal
      · exact positive.trans_eq equal.symm
      · exact equal ▸ fair.market.unspent other rests
  · refine ⟨?_, fair.waits.distinct⟩
    intro other pending
    have before := fair.waits.waiting other pending
    refine ⟨before.taken, before.away, ?_⟩
    rcases either other with equal | equal
    · exact fun filled => positive.ne' (equal.symm.trans filled)
    · exact fun filled => before.unfilled (equal.symm.trans filled)
  · exact fair.known

theorem collected (fair : VenueFair venue) (takes : Takes venue order) :
    VenueFair (venue.collected order) where
  shape := (collected_shape fair.shape takes.fresh).1
  market := fair.market.allocate takes.fresh
  waits := fair.waits.collected fair.shape takes
  known := by
    rintro candidate (rests | ⟨instrumentId, orders, found, member⟩)
    · exact Finset.mem_insert_of_mem (fair.known _ (Or.inl rests))
    · rcases get?_collect found candidate member with
        ⟨rfl, _⟩ | ⟨old, stored, inOld⟩
      · exact Finset.mem_insert_self _ _
      · exact Finset.mem_insert_of_mem
          (fair.known _ (Or.inr ⟨instrumentId, old, stored, inOld⟩))

/-- An order which is known and not collected has been matched. -/
theorem traded (fair : VenueFair venue)
    (taken : order ∈ venue.market.heap.orders)
    (known : order.orderId ∈ venue.allOrderIds)
    (absent : ¬ venue.Pending order) {made : List Trade}
    (reached : MarketFair after)
    (trading :
      Trading (AddParties venue.market order) venue.market made after) :
    VenueFair { venue with market := after } where
  shape := fair.shape.setMarket reached.shape trading.keys trading.orders
  market := reached
  waits :=
    ⟨fun other pending =>
        (fair.waits.waiting other pending).of_trading fair.shape.market
          trading taken fun same => absent (same ▸ pending),
      fair.waits.distinct⟩
  known := by
    rintro other (rests | pending)
    · rcases trading.rests other rests with rfl | old
      · exact known
      · exact fair.known other (Or.inl old)
    · exact fair.known other (Or.inr pending)

theorem cancelled (fair : VenueFair venue)
    (rests : venue.market.Rests order)
    (cancelled : CancelledFrom venue order next) : VenueFair next where
  shape := (cancelled.advances fair.shape).1
  market := fair.market.fewer cancelled.market.shape
    cancelled.market.heap
    fun candidate rests => ((cancelled.market.rests candidate).mp rests).1
  waits := cancelled.pendingWait fair.waits
  known := by
    intro candidate live
    rw [cancelled.rest]
    rcases live with stillRests | pending
    · have facts := (cancelled.market.rests candidate).mp stillRests
      exact Finset.mem_erase.mpr
        ⟨facts.2, fair.known candidate (Or.inl facts.1)⟩
    · rw [ExchangeVenue.Pending, cancelled.pendingOrders] at pending
      exact Finset.mem_erase.mpr
        ⟨fair.pending_ne rests pending,
          fair.known candidate (Or.inr pending)⟩

theorem closing (fair : VenueFair venue) (closing : Closing venue next)
    (empty : ∀ order, ¬ next.market.Rests order) : VenueFair next where
  shape := closing.shape
  market := fair.market.fewer closing.shape.market closing.heap
    closing.rests
  waits := closing.pendingWait fair.waits
  known := by
    rintro candidate (rests | pending)
    · exact absurd rests (empty candidate)
    · rw [ExchangeVenue.Pending, closing.pendingOrders] at pending
      rcases closing.known _ (fair.known candidate (Or.inr pending)) with
        known | ⟨order, rests, equal⟩
      · exact known
      · exact absurd equal.symm (fair.pending_ne rests pending)

/-- An id which the venue does not know may be forgotten. -/
theorem forget (fair : VenueFair venue) {orderId : String}
    (unknown : orderId ∉ venue.allOrderIds) :
    VenueFair (venue.forget orderId) := by
  have idle : ∀ order, venue.Live order → order.orderId ≠ orderId := by
    rintro order live rfl
    exact unknown (fair.known order live)
  have shape := fair.shape.forget idle
  constructor
  · exact shape
  · exact
      ⟨shape.market,
        fun order taken =>
          fair.market.solvent order (mem_forget.mp taken).1,
        fair.market.unspent⟩
  · refine ⟨?_, fair.waits.distinct⟩
    intro order pending
    have before := fair.waits.waiting order pending
    exact ⟨mem_forget.mpr ⟨before.taken, idle order (Or.inr pending)⟩,
      before.away, before.unfilled⟩
  · exact fair.known

end VenueFair

end Fair

/-! ## Submitting an order -/

section Submit

variable {venue next : ExchangeVenue} {order : Order} {after : Market}

/-- An order which the venue takes in while the market is continuous. -/
structure ReachesBook (venue : ExchangeVenue) (order : Order) : Prop where
  takes : Takes venue order
  continuous : venue.shouldUseBatchEngine = false

theorem ReachesBook.submitObject_apply (reaches : ReachesBook venue order)
    (left : ℚ) :
    ExchangeVenue.submitObject order left venue =
      ExchangeVenue.onMarket (ContinuousMatchingEngine.submitOrder order)
        (venue.registerObject order left) := by
  rcases reaches with ⟨takes, continuous⟩
  exact ExchangeVenue.submitObject_continuous takes.allowed takes.listed
    takes.unknown continuous

/-- Only the amounts decide whether everything at the desk is possible. -/
theorem Desk.possible_effects_iff {desk : Desk} {quote : Quote} :
    (∀ effect ∈ desk.effects quote, effect.Possible) ↔
      ∀ amount ∈ (desk.met quote).amounts, Whole amount := by
  constructor
  · intro possible amount member
    exact possible (.trade amount)
      (List.mem_append_left _ (List.mem_map_of_mem member))
  · intro whole effect member
    rcases List.mem_append.mp member with traded | rests
    · rcases List.mem_map.mp traded with ⟨amount, inAmounts, rfl⟩
      exact whole amount inAmounts
    · split_ifs at rests
      · rw [List.mem_singleton.mp rests]
        trivial
      · cases rests

/-- The continuous engine has the effects which the desk shows. -/
theorem ReachesBook.carriesOut (reaches : ReachesBook venue order)
    (fair : VenueFair venue) {left : ℚ} (positive : 0 < left) :
    CarriesOut id Market.progress DeskEffect.Possible
      (ContinuousMatchingEngine.submitOrder order)
      (venue.registerObject order left).market
      ((venue.market.desk order.instrumentId).effects (order, left))
      (fun result after =>
        MarketFair after ∧
          Trading (AddParties (venue.registerObject order left).market order)
            (venue.registerObject order left).market result.fills
            after) := by
  have fresh := reaches.takes.fresh
  rcases (OrderedDict.contains_iff_exists _ _).mp reaches.takes.listed with
    ⟨book, found⟩
  have registered : VenueFair (venue.registerObject order left) :=
    (fair.registered fresh).setLeft positive
  have waits : Waiting (venue.registerObject order left).market order :=
    { taken := registered_mem
      away := fun rests =>
        fresh order (fair.shape.market.registered order rests) rfl
      unfilled := fun filled => positive.ne'
        (ExchangeVenue.remaining_registerObject_self.symm.trans filled) }
  have adds := onBook_addOrder_carriesOut registered.market found waits
  have quote : BookState.quote
      ⟨(venue.registerObject order left).market.heap, book⟩ order =
        (order, left) :=
    congrArg (Prod.mk order) ExchangeVenue.remaining_registerObject_self
  have desk : BookState.desk
      ⟨(venue.registerObject order left).market.heap, book⟩ =
        venue.market.desk order.instrumentId := by
    simp only [Market.desk, found]
    funext side
    apply List.map_congr_left
    intro other member
    apply congrArg (Prod.mk other)
    exact ExchangeVenue.remaining_registerObject_ne (fresh other
      (fair.shape.market.registered other
        ⟨_, book, found, OrderBook.mem_resting_of_mem member⟩))
  rw [quote, desk] at adds
  rw [ContinuousMatchingEngine.submitOrder,
    ← List.append_nil (Desk.effects _ _)]
  apply adds.bind
  intro trades after _ arrived
  apply CarriesOut.of_ends
  rw [ends_get_bind, ends_pure]
  exact ⟨rfl, arrived.fair, arrived.trading⟩

/-- The order has been matched in its book. -/
theorem ReachesBook.fair (reaches : ReachesBook venue order)
    (fair : VenueFair venue) {left : ℚ} (positive : 0 < left)
    {made : List Trade} (reached : MarketFair after)
    (trading :
      Trading (AddParties (venue.registerObject order left).market order)
        (venue.registerObject order left).market made after) :
    VenueFair { venue.registerObject order left with market := after } := by
  have fresh := reaches.takes.fresh
  have absent : ¬ venue.Pending order := fun pending =>
    fresh order (fair.shape.live_taken (Or.inr pending)) rfl
  have registered : VenueFair (venue.registerObject order left) :=
    (fair.registered fresh).setLeft positive
  exact registered.traded registered_mem (Finset.mem_insert_self _ _)
    absent reached trading

/-- The order is collected, or everything is left as it was. -/
theorem submitObject_of_not_reachesBook (fair : VenueFair venue)
    (allowed : (VenueCall.submitOrder order).Allowed venue) {left : ℚ}
    (positive : order.orderId ∉ venue.allOrderIds → 0 < left)
    (batch : ¬ ReachesBook venue order) :
    Ends (ExchangeVenue.submitObject order left) venue
      (fun _ next => VenueFair next) (fun _ next => next = venue) := by
  rw [ExchangeVenue.submitObject, ends_get_bind]
  cases phase : venue.currentPhaseState.isOrderSubmissionAllowed with
  | false => exact fair
  | true =>
      simp only [Bool.not_true, Bool.false_eq_true, if_false]
      by_cases listed :
          venue.market.orderBooks.Contains order.instrumentId
      · rw [if_neg (not_not.mpr listed)]
        by_cases known : order.orderId ∈ venue.allOrderIds
        · rw [if_pos known]
          exact rfl
        · rw [if_neg known]
          have takes : Takes venue order :=
            ⟨phase, listed, known,
              fun taken member equal => known (allowed taken member equal)⟩
          cases engine : venue.shouldUseBatchEngine with
          | true => exact (fair.collected takes).setLeft (positive known)
          | false => exact absurd ⟨takes, engine⟩ batch
      · rw [if_pos listed]
        exact rfl

/-- What the condition says of an order which reaches its book. -/
theorem safeOrder_iff
    (allowed : (VenueCall.submitOrder order).Allowed venue) (left : ℚ) :
    venue.SafeOrder order left ↔
      (ReachesBook venue order →
        ∀ amount ∈ venue.amounts order left, Whole amount) := by
  constructor
  · intro safe reaches
    exact safe reaches.takes.allowed reaches.takes.unknown
      reaches.continuous
  · intro whole phase unknown continuous amount member
    by_cases listed : venue.market.orderBooks.Contains order.instrumentId
    · refine whole ⟨⟨phase, listed, unknown, ?_⟩, continuous⟩ amount member
      exact fun taken inHeap same => unknown (allowed taken inHeap same)
    · have missing : venue.market.orderBooks.get? order.instrumentId =
          none := by
        rw [← Option.not_isSome_iff_eq_none, Option.isSome_iff_exists]
        exact fun stored =>
          listed ((OrderedDict.contains_iff_exists _ _).mpr stored)
      simp [ExchangeVenue.amounts, Market.desk, missing, Desk.met,
        meet] at member

end Submit

/-! ## One call -/

section Programs

variable {α : Type} {venue next : ExchangeVenue} {program : VenueM α}

theorem failsAlone_iff :
    FailsAlone program venue ↔
      ∀ exception next, program venue = .error exception next →
        LeftAlone venue next := by
  rw [FailsAlone]
  cases program venue with
  | ok value reached =>
      constructor
      · exact fun _ _ _ impossible => nomatch impossible
      · exact fun _ impossible => nomatch impossible
  | error exception reached =>
      constructor
      · rintro alone _ _ ⟨⟩
        exact alone rfl
      · exact fun alone _ => alone exception reached rfl

theorem failsAlone_of_ends
    (ends : Ends program venue (fun _ _ => True)
      (fun _ next => LeftAlone venue next)) :
    FailsAlone program venue :=
  failsAlone_iff.mpr fun _ _ raised => ends.elim_error raised

theorem LeftAlone.progress_eq (alone : LeftAlone venue next) :
    next.market.progress = venue.market.progress := by
  have rests : { order | next.market.Rests order } =
      { order | venue.market.Rests order } := by
    simp only [Market.Rests, alone.orderBooks]
  rw [Market.progress, Market.progress, alone.trades, rests]

end Programs

/--
A call fails as it should exactly if it meets its condition, and then the
venue is fair again.
-/
structure AtomicStep (call : VenueCall) (venue : ExchangeVenue) :
    Prop where
  unchanged_iff : call.FailsUnchanged venue ↔ call.AtomicWhen venue
  fair : call.AtomicWhen venue → VenueFair (call.execute venue)

section Step

variable {venue : ExchangeVenue} {order : Order}

/-- An order object fails as it should exactly if its trades are whole. -/
theorem submitObject_atomic (fair : VenueFair venue)
    (allowed : (VenueCall.submitOrder order).Allowed venue) {left : ℚ}
    (positive : order.orderId ∉ venue.allOrderIds → 0 < left) :
    (FailsAlone (ExchangeVenue.submitObject order left) venue ↔
        venue.SafeOrder order left) ∧
      (venue.SafeOrder order left →
        VenueFair
          (finalState (ExchangeVenue.submitObject order left venue))) := by
  have condition := safeOrder_iff allowed left
  by_cases reaches : ReachesBook venue order
  · have takes := reaches.takes
    have some := positive takes.unknown
    have carries := reaches.carriesOut fair some
    have applied := reaches.submitObject_apply left
    have possible := carries.returns_iff.trans Desk.possible_effects_iff
    cases evaluated : ContinuousMatchingEngine.submitOrder order
        (venue.registerObject order left).market with
    | ok result after =>
        have returns : ExchangeVenue.submitObject order left venue =
            .ok result
              { venue.registerObject order left with market := after } :=
          applied.trans (zoom_ok evaluated)
        have facts := Ends.elim_ok carries evaluated
        constructor
        · refine iff_of_true ?_ (condition.mpr fun _ =>
            possible.mp ⟨result, after, evaluated⟩)
          exact failsAlone_of_ends (Ends.of_ok returns trivial)
        · intro _
          rw [returns]
          exact reaches.fair fair some facts.2.2.1 facts.2.2.2
    | error exception after =>
        have raises : ExchangeVenue.submitObject order left venue =
            .error exception
              { venue.registerObject order left with market := after } :=
          applied.trans (zoom_error evaluated)
        have unmet : ¬ venue.SafeOrder order left := by
          intro safe
          rcases possible.mpr (condition.mp safe reaches) with
            ⟨_, _, returned⟩
          cases evaluated.symm.trans returned
        constructor
        · refine iff_of_false ?_ unmet
          intro alone
          have same := (failsAlone_iff.mp alone _ _ raises).allOrderIds
          apply takes.unknown
          rw [← same]
          exact Finset.mem_insert_self _ _
        · exact fun safe => absurd safe unmet
  · have ends :=
      submitObject_of_not_reachesBook fair allowed positive reaches
    constructor
    · refine iff_of_true ?_ (condition.mpr fun both => absurd both reaches)
      apply failsAlone_of_ends
      refine ends.mono (fun _ _ _ => trivial) ?_
      rintro _ _ rfl
      exact LeftAlone.refl _
    · intro _
      apply finalState_of_ends
      refine ends.mono (fun _ _ next => next) ?_
      rintro _ _ rfl
      exact fair

theorem submitOrder_atomicStep (fair : VenueFair venue)
    (allowed : (VenueCall.submitOrder order).Allowed venue) :
    AtomicStep (.submitOrder order) venue := by
  have atomic := submitObject_atomic fair allowed
    (fun _ => order.quantity_positive)
  rw [ExchangeVenue.submitObject_quantity] at atomic
  exact ⟨atomic.1, atomic.2⟩

theorem runBatch_carriesOut_venue (fair : VenueFair venue)
    (draw : String → ℚ) :
    CarriesOut BatchContext.market Market.progress DeskEffect.Possible
      (BatchMatchingEngine.runBatch draw venue.pendingOrders)
      (BatchContext.start venue.market)
      (batchPlan draw venue.market venue.pendingOrders)
      (fun _ reached =>
        MarketFair reached.market ∧
          Market.Made (batchPlan draw venue.market venue.pendingOrders)
            venue.market reached.market) :=
  runBatch_carriesOut fair.market
    (fun order member =>
      fair.waits.waiting order (ExchangeVenue.pending_of_mem member))
    (fair.waits.nodup_ordersOf fair.shape) fair.shape.inside

/-- The batch engine fails as it should exactly if the batch is safe. -/
theorem runBatchEngine_failsAlone_iff (fair : VenueFair venue)
    (draw : String → ℚ) :
    FailsAlone (ExchangeVenue.runBatchEngine draw) venue ↔
      venue.SafeBatch draw := by
  have carries := runBatch_carriesOut_venue fair draw
  have safe := carries.unchanged_iff
    (fun context =>
      LeftAlone venue { venue with market := context.market })
    (fun reached (same : reached.market = venue.market) => by
      rw [same]
      exact LeftAlone.refl venue)
    (fun _ alone => alone.progress_eq)
  refine failsAlone_iff.trans (Iff.trans ?_ safe)
  rw [runBatchEngine_apply]
  show _ ↔ ∀ exception reached, BatchMatchingEngine.runBatch draw
    venue.pendingOrders { market := venue.market, results := ∅ } =
      .error exception reached → _
  cases BatchMatchingEngine.runBatch draw venue.pendingOrders
      { market := venue.market, results := ∅ } with
  | ok results context =>
      exact iff_of_true (fun _ _ impossible => nomatch impossible)
        (fun _ _ impossible => nomatch impossible)
  | error exception context =>
      constructor
      · rintro alone _ _ ⟨⟩
        exact alone exception _ rfl
      · rintro alone _ _ ⟨⟩
        exact alone exception context rfl

/-- A safe batch leaves the venue fair, also when it raises at once. -/
theorem runBatchEngine_fair (fair : VenueFair venue) (draw : String → ℚ)
    (safe : venue.SafeBatch draw) :
    VenueFair (finalState (ExchangeVenue.runBatchEngine draw venue)) := by
  have carries := runBatch_carriesOut_venue fair draw
  have unchanged := (carries.unchanged_iff
    (fun context => context.market = venue.market)
    (fun _ same => same) (fun _ same => congrArg _ same)).mpr safe
  have advances := finalState_of_ends
    ((runBatchEngine_ends fair.shape draw).mono
      (fun _ _ facts => facts.1.1) (fun _ _ facts => facts.1.1))
  have applied := runBatchEngine_apply venue draw
  cases evaluated : BatchMatchingEngine.runBatch draw
      venue.pendingOrders { market := venue.market, results := ∅ } with
  | ok results context =>
      rw [evaluated] at applied
      rw [applied] at advances ⊢
      refine ⟨advances, (Ends.elim_ok carries evaluated).2.2.1,
        PendingWait.of_empty rfl, ?_⟩
      rcases (runBatch_traded fair.shape draw).elim_ok evaluated with
        ⟨_, made, trading⟩
      rintro order (rests | ⟨instrumentId, orders, found, _⟩)
      · exact fair.known order (trading.rests order rests)
      · simp at found
  | error exception context =>
      rw [evaluated] at applied
      rw [applied]
      have same : context.market = venue.market :=
        unchanged exception context evaluated
      rw [finalState_error, same]
      exact fair

theorem executeOpeningAuction_apply (venue : ExchangeVenue)
    (draw : String → ℚ) :
    ExchangeVenue.executeOpeningAuction draw venue =
      match ExchangeVenue.runBatchEngine draw venue with
      | .ok _ next => .ok ⟨⟩ next
      | .error exception next => .error exception next := by
  rw [ExchangeVenue.executeOpeningAuction, bind_apply]
  cases ExchangeVenue.runBatchEngine draw venue <;> rfl

theorem executeOpeningAuction_atomicStep (fair : VenueFair venue)
    (draw : String → ℚ) :
    AtomicStep (.executeOpeningAuction draw) venue := by
  have applied := executeOpeningAuction_apply venue draw
  constructor
  · refine Iff.trans ?_ (runBatchEngine_failsAlone_iff fair draw)
    show FailsAlone (ExchangeVenue.executeOpeningAuction draw) venue ↔ _
    rw [FailsAlone, FailsAlone, applied]
    cases ExchangeVenue.runBatchEngine draw venue with
    | ok results next =>
        exact iff_of_true (fun impossible => nomatch impossible)
          (fun impossible => nomatch impossible)
    | error exception next =>
        exact ⟨fun alone _ => alone rfl, fun alone _ => alone rfl⟩
  · intro safe
    have reached := runBatchEngine_fair fair draw safe
    rw [VenueCall.execute, applied]
    cases evaluated : ExchangeVenue.runBatchEngine draw venue with
    | ok results next =>
        rw [evaluated] at reached
        exact reached
    | error exception next =>
        rw [evaluated] at reached
        exact reached

theorem executeBatch_atomicStep (fair : VenueFair venue)
    (draw : String → ℚ) : AtomicStep (.executeBatch draw) venue := by
  by_cases batch : venue.currentPhaseState.executionStyle = .batch
  · have applied : ExchangeVenue.executeBatch draw venue =
        ExchangeVenue.runBatchEngine draw venue := by
      rw [ExchangeVenue.executeBatch, bind_apply, get_apply]
      simp only [if_pos batch]
    constructor
    · refine Iff.trans ?_ ((runBatchEngine_failsAlone_iff fair draw).trans
        ⟨fun safe _ => safe, fun safe => safe batch⟩)
      show FailsAlone (ExchangeVenue.executeBatch draw) venue ↔ _
      rw [FailsAlone, FailsAlone, applied]
    · intro safe
      rw [VenueCall.execute, applied]
      exact runBatchEngine_fair fair draw (safe batch)
  · have applied : ExchangeVenue.executeBatch draw venue =
        .ok ∅ venue := by
      rw [ExchangeVenue.executeBatch, bind_apply, get_apply]
      simp only [if_neg batch]
      rfl
    constructor
    · refine iff_of_true ?_ fun style => absurd style batch
      exact failsAlone_of_ends (Ends.of_ok applied trivial)
    · intro _
      rw [VenueCall.execute, applied]
      exact fair

/-- A check fails as the auction it runs does. -/
theorem checkPhaseTransitions_atomicStep (fair : VenueFair venue)
    (observed : PhaseState) (draw : String → ℚ) :
    AtomicStep (.checkPhaseTransitions observed draw) venue := by
  have applied := checkPhaseTransitions_apply venue observed draw
  have observing := fair.observing observed
  by_cases opens : venue.lastPhase = some .preOpen ∧
      observed.phaseType = .openingAuction
  · rcases opens with ⟨last, phase⟩
    have auctions :
        ExchangeVenue.checkPhaseTransitions observed draw venue =
          ExchangeVenue.executeOpeningAuction draw
            (venue.observing observed) := by
      rw [applied, last]
      simp only [phase]
      rfl
    have auction := executeOpeningAuction_atomicStep observing draw
    constructor
    · have same : (VenueCall.checkPhaseTransitions observed
          draw).FailsUnchanged venue ↔
          (VenueCall.executeOpeningAuction draw).FailsUnchanged
            (venue.observing observed) := by
        show FailsAlone (ExchangeVenue.checkPhaseTransitions observed draw)
          venue ↔ FailsAlone (ExchangeVenue.executeOpeningAuction draw)
            (venue.observing observed)
        rw [FailsAlone, FailsAlone, auctions, leftAlone_observing]
      exact (same.trans auction.unchanged_iff).trans
        ⟨fun safe _ _ => safe, fun safe => safe last phase⟩
    · intro safe
      rw [VenueCall.execute, auctions]
      exact auction.fair (safe last phase)
  · have quiet : Ends (ExchangeVenue.checkPhaseTransitions observed draw)
        venue (fun _ next => VenueFair next) (fun _ _ => False) := by
      cases last : venue.lastPhase with
      | none =>
          rw [last] at applied
          exact Ends.of_ok applied observing
      | some previous =>
          rw [last] at applied opens
          by_cases same : previous = observed.phaseType
          · simp only [if_pos same] at applied
            exact Ends.of_ok applied observing
          · simp only [if_neg same] at applied
            apply Ends.of_eq applied
            have close := (cancelAllOrders_ends observing.shape).mono
              (fun _ _ closed => observing.closing closed.1 closed.2)
              (fun _ _ impossible => impossible)
            cases previous <;> cases phase : observed.phaseType <;>
              first
                | exact observing
                | exact close
                | exact absurd ⟨rfl, phase⟩ opens
    constructor
    · refine iff_of_true ?_ fun last phase => absurd ⟨last, phase⟩ opens
      exact failsAlone_of_ends (quiet.mono (fun _ _ _ => trivial)
        (fun _ _ impossible => impossible.elim))
    · intro _
      apply finalState_of_ends
      exact quiet.mono (fun _ _ next => next)
        (fun _ _ impossible => impossible.elim)

/-- The other calls raise before they touch anything, or never. -/
theorem atomicStep_of_ends {α : Type} {program : VenueM α}
    {call : VenueCall} (always : call.AtomicWhen venue)
    (fails : call.FailsUnchanged venue ↔ FailsAlone program venue)
    (leaves : call.execute venue = finalState (program venue))
    (fair : VenueFair venue)
    (ends : Ends program venue (fun _ next => VenueFair next)
      (fun _ next => next = venue)) :
    AtomicStep call venue := by
  constructor
  · refine iff_of_true (fails.mpr ?_) always
    apply failsAlone_of_ends
    refine ends.mono (fun _ _ _ => trivial) ?_
    rintro _ _ rfl
    exact LeftAlone.refl _
  · intro _
    rw [leaves]
    apply finalState_of_ends
    refine ends.mono (fun _ _ next => next) ?_
    rintro _ _ rfl
    exact fair

/-- Every call fails as it should exactly if it meets its condition. -/
theorem atomicStep (fair : VenueFair venue) {call : VenueCall}
    (allowed : call.Allowed venue) : AtomicStep call venue := by
  cases call with
  | listInstrument instrument =>
      apply @atomicStep_of_ends _ _ _ (.listInstrument instrument) trivial
        Iff.rfl rfl fair
      refine (listInstrument_ends fair.shape instrument).mono ?_
        (fun _ _ same => same)
      rintro _ next ⟨advances, rfl⟩
      exact fair.listed advances.1
  | submitOrder order => exact submitOrder_atomicStep fair allowed
  | cancelOrder orderId traderId =>
      apply @atomicStep_of_ends _ _ _ (.cancelOrder orderId traderId)
        trivial Iff.rfl rfl fair
      rcases cancelOrder_cases_venue fair.shape orderId traderId with
        ⟨order, next, cancellable, evaluates, cancelled⟩ |
          ⟨_, evaluates | ⟨exception, evaluates⟩⟩
      · exact Ends.of_ok evaluates
          (fair.cancelled cancellable.rests cancelled)
      · exact Ends.of_ok evaluates fair
      · exact Ends.of_error evaluates rfl
  | executeBatch draw => exact executeBatch_atomicStep fair draw
  | executeOpeningAuction draw =>
      exact executeOpeningAuction_atomicStep fair draw
  | cancelAllOrders =>
      apply @atomicStep_of_ends _ _ _ .cancelAllOrders trivial Iff.rfl rfl
        fair
      exact (cancelAllOrders_ends fair.shape).mono
        (fun _ _ closed => fair.closing closed.1 closed.2)
        (fun _ _ impossible => impossible.elim)
  | checkPhaseTransitions observed draw =>
      exact checkPhaseTransitions_atomicStep fair observed draw

end Step

/-! ## Venues which are fair but for their history -/

/-- The venue shows the same as a fair one. -/
def ShowsFair (venue : ExchangeVenue) : Prop :=
  ∃ clean, VenueFair clean ∧ SameRecords clean venue

section Shows

variable {clean venue cleanNext next : ExchangeVenue} {order : Order}

/-- Only what is shown decides whether something is left alone. -/
theorem SameRecords.leftAlone_iff (same : SameRecords clean venue)
    (sameNext : SameRecords cleanNext next) :
    LeftAlone clean cleanNext ↔ LeftAlone venue next := by
  rw [same.eq_withOrders, sameNext.eq_withOrders]
  exact
    ⟨fun alone => ⟨alone.orderBooks, alone.remaining, alone.trades,
      alone.pendingOrders, alone.allOrderIds⟩,
    fun alone => ⟨alone.orderBooks, alone.remaining, alone.trades,
      alone.pendingOrders, alone.allOrderIds⟩⟩

theorem SameRecords.failsUnchanged_iff (same : SameRecords clean venue)
    (call : ObjectCall) :
    call.FailsUnchanged clean ↔ call.FailsUnchanged venue := by
  have step := same.step call
  exact imp_congr step.1 (same.leftAlone_iff step.2)

theorem SameRecords.atomicWhen_iff (same : SameRecords clean venue)
    (call : ObjectCall) :
    call.AtomicWhen clean ↔ call.AtomicWhen venue := by
  rw [same.eq_withOrders]
  cases call with
  | submitObject order left => exact Iff.rfl
  | operation call => cases call <;> exact Iff.rfl

/-- The fair venue can be chosen so that the next order is fresh. -/
theorem ShowsFair.fresh (shows : ShowsFair venue) (call : ObjectCall) :
    ∃ clean, VenueFair clean ∧ SameRecords clean venue ∧
      call.Fresh clean := by
  rcases shows with ⟨clean, fair, same⟩
  exact same.freshen fair fun orderId _ unknown => fair.forget unknown

/-- Every call fails as it should exactly if it meets its condition. -/
theorem VenueFair.step (fair : VenueFair venue) {call : ObjectCall}
    (fresh : call.Fresh venue) (possible : call.Possible venue) :
    (call.FailsUnchanged venue ↔ call.AtomicWhen venue) ∧
      (call.AtomicWhen venue → VenueFair (call.execute venue)) := by
  cases call with
  | submitObject order left =>
      exact submitObject_atomic fair fresh
        fun unknown => (possible unknown).1
  | operation call =>
      have atomic := atomicStep fair fresh
      exact ⟨atomic.unchanged_iff, atomic.fair⟩

theorem ShowsFair.step (shows : ShowsFair venue) {call : ObjectCall}
    (possible : call.Possible venue) :
    (call.FailsUnchanged venue ↔ call.AtomicWhen venue) ∧
      (call.AtomicWhen venue → ShowsFair (call.execute venue)) := by
  rcases shows.fresh call with ⟨clean, fair, same, fresh⟩
  rcases fair.step fresh (same.possible possible) with ⟨unchanged, next⟩
  rw [same.failsUnchanged_iff, same.atomicWhen_iff] at unchanged
  refine ⟨unchanged, fun atomic => ?_⟩
  exact ⟨_, next ((same.atomicWhen_iff call).mpr atomic),
    (same.step call).2⟩

/-- No order both rests and is collected. -/
theorem ShowsFair.apart (shows : ShowsFair venue) (order : Order) :
    ¬ (venue.market.Rests order ∧ venue.Pending order) := by
  rcases shows with ⟨clean, fair, same⟩
  rw [same.eq_withOrders]
  exact fair.apart order

end Shows

/-! ## Runs -/

/-- Every failing call of the run leaves the venue as it was. -/
def FailuresUnchanged (start : ExchangeVenue) (calls : List ObjectCall) :
    Prop :=
  ∀ before call after venue, calls = before ++ call :: after →
    Run ObjectStep start before venue → call.FailsUnchanged venue

/--
In a run with any ids, any quantities and any order objects, the failing calls
all leave the venue as it was exactly if every order which reaches a book
trades whole contracts only and every batch does, unless its first trade is
refused.  Then no order both rests and waits for a batch.
-/
theorem ExchangeVenue.failuresUnchanged_iff
    {cached baseline : PhaseState} {calls : List ObjectCall}
    {venue : ExchangeVenue}
    (run :
      Run ObjectStep (ExchangeVenue.new cached baseline) calls venue) :
    (FailuresUnchanged (ExchangeVenue.new cached baseline) calls ↔
        Permitted ObjectCall.AtomicWhen ObjectCall.execute
          (ExchangeVenue.new cached baseline) calls) ∧
      (Permitted ObjectCall.AtomicWhen ObjectCall.execute
          (ExchangeVenue.new cached baseline) calls →
        ∀ order, ¬ (venue.market.Rests order ∧ venue.Pending order)) := by
  have start : ShowsFair (ExchangeVenue.new cached baseline) :=
    ⟨_, VenueFair.new cached baseline,
      SameRecords.refl (VenueShape.new cached baseline)⟩
  have facts := run.permitted_iff ShowsFair start
    (fun _ _ shows possible => (shows.step possible).1)
    (fun _ _ shows possible => (shows.step possible).2)
  constructor
  · exact run.permitted_iff_forall.symm.trans facts.1
  · intro atomic order
    exact (facts.2 atomic).apart order

/-- An offer which has been filled in part may come back under its id. -/
theorem ExchangeVenue.failuresUnchanged_iff_handedInAgain :
    FailuresUnchanged Sample.closedVenue Sample.handedInAgain :=
  (ExchangeVenue.failuresUnchanged_iff
    (run_replay (by decide +kernel))).1.mpr (by decide +kernel)

namespace Sample

/-- Ten more contracts are offered. -/
def sellTenMore : Order :=
  { sellTen with orderId := "MORE" }

/-- A team wants to buy ten contracts and a half. -/
def buyTenAndHalf : Order :=
  { buyFour with
    quantity := 21 / 2
    orderId := "HALF"
    quantity_positive := by decide +kernel }

/-- Two offers rest when the order for a part of a contract comes. -/
def twoOffers : List ObjectCall :=
  ObjectCall.operations (continuousCalls ++ [.submitOrder sellTenMore])

end Sample

/--
The second trade of an order for ten contracts and a half is refused.  By
then its id is registered, and the first offer has been filled.
-/
theorem ExchangeVenue.failure_changes :
    ¬ ∀ cached baseline calls venue order exception next,
      Run ObjectStep (ExchangeVenue.new cached baseline) calls venue →
      ExchangeVenue.submitOrder order venue = .error exception next →
        LeftAlone venue next := by
  intro always
  have run : Run ObjectStep Sample.closedVenue Sample.twoOffers _ :=
    run_replay (by decide +kernel)
  cases evaluated : ExchangeVenue.submitOrder Sample.buyTenAndHalf
      (replay ObjectCall.execute Sample.closedVenue Sample.twoOffers) with
  | ok result next =>
      have raises : returned (ExchangeVenue.submitOrder
          Sample.buyTenAndHalf (replay ObjectCall.execute
            Sample.closedVenue Sample.twoOffers)) = none := by
        decide +kernel
      rw [evaluated] at raises
      cases raises
  | error exception next =>
      have alone := always _ _ _ _ Sample.buyTenAndHalf exception next run
        evaluated
      have traded : (finalState (ExchangeVenue.submitOrder
          Sample.buyTenAndHalf (replay ObjectCall.execute
            Sample.closedVenue Sample.twoOffers))).market.heap.trades.length
          = 1 := by
        decide +kernel
      rw [evaluated, finalState_error, alone.trades] at traded
      have before : (replay ObjectCall.execute Sample.closedVenue
          Sample.twoOffers).market.heap.trades.length = 0 := by
        decide +kernel
      omega

end InternTradingGame
