import InternTradingGame.Exchange.BatchSound

/-!
# Runs of whole quantities

While all submitted orders have whole quantities, the books and the batch
engine agree with the accounts of every order, no collected order rests in a
book as well, and the venue knows the id of every live order.
-/

namespace InternTradingGame

open Effects

/-- Every collected order waits for the batch, and no order twice. -/
structure PendingWait (venue : ExchangeVenue) : Prop where
  waiting : ∀ order, venue.Pending order → Waiting venue.market order
  distinct : ∀ instrumentId orders,
    venue.pendingOrders.get? instrumentId = some orders → orders.Nodup

theorem PendingWait.of_empty {venue : ExchangeVenue}
    (empty : venue.pendingOrders = ∅) : PendingWait venue where
  waiting := by
    rintro order ⟨instrumentId, orders, found, _⟩
    simp [empty] at found
  distinct := by
    intro instrumentId orders found
    simp [empty] at found

/-- What holds of a venue which has only taken in whole quantities. -/
structure VenueSound (venue : ExchangeVenue) : Prop where
  shape : VenueShape venue
  market : MarketSound venue.market
  waiting : ∀ order, venue.Pending order → Waiting venue.market order
  distinct : ∀ instrumentId orders,
    venue.pendingOrders.get? instrumentId = some orders → orders.Nodup
  known : ∀ order, venue.Live order → order.orderId ∈ venue.allOrderIds

namespace VenueSound

variable {venue : ExchangeVenue}

theorem pendingWait (sound : VenueSound venue) : PendingWait venue :=
  ⟨sound.waiting, sound.distinct⟩

theorem new (cached baseline : PhaseState) :
    VenueSound (ExchangeVenue.new cached baseline) where
  shape := VenueShape.new cached baseline
  market :=
    { shape := (VenueShape.new cached baseline).market
      books := by
        intro instrumentId book found
        simp [ExchangeVenue.new] at found
      fillable := by simp [ExchangeVenue.new, Heap.empty]
      accounted := by simp [ExchangeVenue.new, Heap.empty]
      between := by simp [ExchangeVenue.new, Heap.empty] }
  waiting := (PendingWait.of_empty rfl).waiting
  distinct := (PendingWait.of_empty rfl).distinct
  known := by
    rintro order (⟨instrumentId, book, found, _⟩ |
      ⟨instrumentId, orders, found, _⟩)
    · simp [ExchangeVenue.new] at found
    · simp [ExchangeVenue.new] at found

/-- The phase does not matter. -/
theorem observing (sound : VenueSound venue) (observed : PhaseState) :
    VenueSound (venue.observing observed) where
  shape := observing_shape sound.shape observed
  market := sound.market
  waiting := sound.waiting
  distinct := sound.distinct
  known := sound.known

/-- A collected order does not rest in a book as well. -/
theorem apart (sound : VenueSound venue) {order other : Order}
    (rests : venue.market.Rests order) (pending : venue.Pending other) :
    other.orderId ≠ order.orderId := by
  intro equal
  have same := sound.shape.market.eq_of_orderId_eq
    (sound.shape.live_taken (Or.inr pending))
    (sound.shape.market.registered order rests) equal
  exact (sound.waiting other pending).away (same ▸ rests)

end VenueSound

/-! ## Listing an instrument -/

theorem MarketSound.listing {market : Market}
    (sound : MarketSound market) (symbol : String) :
    MarketSound (market.listing symbol) where
  shape := sound.shape.listing symbol
  books := by
    intro instrumentId book found
    rcases Market.get?_listing found with ⟨_, rfl⟩ | listed
    · exact (BookInv.new _ symbol).quantities
    · exact sound.books instrumentId book listed
  fillable := sound.fillable
  accounted := sound.accounted
  between := sound.between

theorem PendingWait.listed {venue : ExchangeVenue}
    (waits : PendingWait venue) (instrument : Instrument) :
    PendingWait (venue.listed instrument) where
  waiting := by
    intro order pending
    have before := waits.waiting order pending
    exact ⟨before.taken,
      fun rests => before.away (Market.rests_listing rests),
      before.unfilled⟩
  distinct := waits.distinct

theorem VenueSound.listed {venue : ExchangeVenue}
    (sound : VenueSound venue) {instrument : Instrument}
    (shape : VenueShape (venue.listed instrument)) :
    VenueSound (venue.listed instrument) where
  shape := shape
  market := sound.market.listing instrument.symbol
  waiting := (sound.pendingWait.listed instrument).waiting
  distinct := sound.distinct
  known order live :=
    sound.known order (live.imp_left Market.rests_listing)

/-! ## Submitting an order -/

section Submit

variable {venue : ExchangeVenue} {order : Order}

/-- No trade names an order which has not been taken in. -/
theorem MarketSound.unnamed {market : Market}
    (sound : MarketSound market)
    (fresh : ∀ taken ∈ market.heap.orders,
      taken.orderId ≠ order.orderId) :
    tradedQuantity order.orderId market.heap.trades = 0 := by
  apply tradedQuantity_eq_zero
  intro trade member names
  rcases sound.between trade member with
    ⟨buy, buyTaken, sell, sellTaken, between⟩
  rcases (between.names_iff _).mp names with isBuy | isSell
  · exact fresh buy buyTaken isBuy
  · exact fresh sell sellTaken isSell

/-- Taking a new order in keeps the market sound. -/
theorem MarketSound.register (sound : MarketSound venue.market)
    (shape : MarketShape (venue.register order).market)
    (whole : Whole order.quantity)
    (fresh : ∀ taken ∈ venue.market.heap.orders,
      taken.orderId ≠ order.orderId) :
    MarketSound (venue.register order).market where
  shape := shape
  books := by
    intro instrumentId book found
    have old := sound.bookInv found
    refine (old.congr_heap ?_).quantities
    intro resting member
    exact Heap.remaining_allocate_ne _
      (fresh resting
        (sound.shape.registered resting ⟨_, book, found, member⟩))
  fillable := by
    intro candidate member
    rcases List.mem_append.mp member with old | new
    · exact (sound.fillable candidate old).congr
        (Heap.remaining_allocate_ne _ (fresh candidate old))
    · rw [List.mem_singleton.mp new]
      exact Order.Fillable.allocate _ whole
  accounted := by
    intro candidate member
    rcases List.mem_append.mp member with old | new
    · exact (sound.accounted candidate old).trans
        (congrArg (candidate.quantity - ·)
          (Heap.remaining_allocate_ne _ (fresh candidate old)).symm)
    · rw [List.mem_singleton.mp new]
      refine (sound.unnamed fresh).trans ?_
      change 0 =
        order.quantity - (venue.market.heap.allocate order).remaining order
      rw [Heap.remaining_allocate_self, sub_self]
  between := by
    intro trade member
    rcases sound.between trade member with
      ⟨buy, buyTaken, sell, sellTaken, between⟩
    exact ⟨buy, List.mem_append_left _ buyTaken, sell,
      List.mem_append_left _ sellTaken, between⟩

/-- An order which waits for the market still waits after the next one. -/
theorem Waiting.register {other : Order}
    (waits : Waiting venue.market other)
    (fresh : ∀ taken ∈ venue.market.heap.orders,
      taken.orderId ≠ order.orderId) :
    Waiting (venue.register order).market other where
  taken := List.mem_append_left _ waits.taken
  away := waits.away
  unfilled := by
    change (venue.market.heap.allocate order).remaining other ≠ 0
    rw [Heap.remaining_allocate_ne _ (fresh other waits.taken)]
    exact waits.unfilled

/-- The order which has just been taken in waits. -/
theorem Waiting.registered (shape : MarketShape venue.market)
    (fresh : ∀ taken ∈ venue.market.heap.orders,
      taken.orderId ≠ order.orderId) :
    Waiting (venue.register order).market order where
  taken := registered_mem
  away rests := fresh order (shape.registered order rests) rfl
  unfilled := by
    change (venue.market.heap.allocate order).remaining order ≠ 0
    rw [Heap.remaining_allocate_self]
    exact order.quantity_positive.ne'

theorem PendingWait.collected (waits : PendingWait venue)
    (shape : VenueShape venue) (takes : Takes venue order) :
    PendingWait (venue.collected order) where
  waiting := by
    rintro candidate ⟨instrumentId, orders, found, member⟩
    rcases get?_collect found candidate member with
      ⟨rfl, _⟩ | ⟨old, stored, inOld⟩
    · exact Waiting.registered shape.market takes.fresh
    · exact (waits.waiting candidate
        ⟨instrumentId, old, stored, inOld⟩).register takes.fresh
  distinct := by
    intro instrumentId orders found
    rw [ExchangeVenue.collected, BatchMatchingEngine.collect,
      OrderedDict.get?_set] at found
    by_cases same : instrumentId = order.instrumentId
    · rw [if_pos same] at found
      rcases Option.some.inj found with rfl
      cases stored : venue.pendingOrders.get? order.instrumentId with
      | none => exact List.nodup_singleton order
      | some old =>
          refine List.nodup_append.mpr
            ⟨waits.distinct _ old stored, List.nodup_singleton order, ?_⟩
          intro candidate inOld other inNew equal
          have taken := shape.live_taken
            (Or.inr ⟨_, old, stored, inOld⟩)
          exact takes.fresh candidate taken
            (congrArg Order.orderId
              (equal.trans (List.mem_singleton.mp inNew)))
    · rw [if_neg same] at found
      exact waits.distinct _ _ found

/-- The batch engine has collected one more waiting order. -/
theorem VenueSound.collected (sound : VenueSound venue)
    (takes : Takes venue order) (whole : Whole order.quantity) :
    VenueSound (venue.collected order) where
  shape := (collected_shape sound.shape takes.fresh).1
  market := sound.market.register
    (register_shape sound.shape takes.fresh).market whole takes.fresh
  waiting := (sound.pendingWait.collected sound.shape takes).waiting
  distinct := (sound.pendingWait.collected sound.shape takes).distinct
  known := by
    rintro candidate (rests | ⟨instrumentId, orders, found, member⟩)
    · exact Finset.mem_insert_of_mem (sound.known _ (Or.inl rests))
    · rcases get?_collect found candidate member with
        ⟨rfl, _⟩ | ⟨old, stored, inOld⟩
      · exact Finset.mem_insert_self _ _
      · exact Finset.mem_insert_of_mem
          (sound.known _ (Or.inr ⟨instrumentId, old, stored, inOld⟩))

theorem PendingWait.submitted (waits : PendingWait venue)
    (shape : VenueShape venue) (takes : Takes venue order)
    {made : List Trade} {market : Market}
    (trading :
      Trading (AddParties (venue.register order).market order)
        (venue.register order).market made market) :
    PendingWait (venue.submitted order market) where
  waiting := by
    intro candidate pending
    have before := waits.waiting candidate pending
    refine (before.register takes.fresh).of_trading
      (register_shape shape takes.fresh).market trading
      registered_mem ?_
    rintro rfl
    exact takes.fresh candidate before.taken rfl
  distinct := waits.distinct

/-- The continuous engine has matched an order and kept the rest. -/
theorem VenueSound.submitted (sound : VenueSound venue)
    (takes : Takes venue order) {made : List Trade} {market : Market}
    (marketSound : MarketSound market)
    (trading :
      Trading (AddParties (venue.register order).market order)
        (venue.register order).market made market) :
    VenueSound (venue.submitted order market) where
  shape := (submitted_shape sound.shape takes.fresh marketSound.shape
    trading).1
  market := marketSound
  waiting :=
    (sound.pendingWait.submitted sound.shape takes trading).waiting
  distinct := sound.distinct
  known := by
    rintro candidate (rests | pending)
    · rcases trading.rests candidate rests with rfl | old
      · exact Finset.mem_insert_self _ _
      · exact Finset.mem_insert_of_mem (sound.known _ (Or.inl old))
    · exact Finset.mem_insert_of_mem (sound.known _ (Or.inr pending))

/-- The continuous engine matches a new order without raising. -/
theorem Takes.matches_ (takes : Takes venue order)
    (sound : VenueSound venue) (whole : Whole order.quantity) :
    ∃ result after,
      ContinuousMatchingEngine.submitOrder order
          (venue.register order).market = .ok result after ∧
        MarketSound after ∧
        Trading (AddParties (venue.register order).market order)
          (venue.register order).market result.fills after := by
  have waits := Waiting.registered sound.shape.market takes.fresh
  exact continuous_submitOrder_sound
    (sound.market.register
      (register_shape sound.shape takes.fresh).market whole takes.fresh)
    takes.listed waits.taken waits.away

/-- An order which the venue takes in gets an answer. -/
theorem Takes.answered (takes : Takes venue order)
    (sound : VenueSound venue) (whole : Whole order.quantity) :
    ∃ result next,
      ExchangeVenue.submitOrder order venue = .ok result next := by
  rw [ExchangeVenue.submitOrder, bind_apply, get_apply]
  simp only [takes.allowed, takes.listed, takes.unknown, Bool.not_true,
    Bool.false_eq_true, not_true, if_false]
  by_cases engine : venue.shouldUseBatchEngine = true
  · simp only [engine, if_true]
    exact ⟨_, _, rfl⟩
  · rcases takes.matches_ sound whole with ⟨result, after, submits, _⟩
    simp only [engine, Bool.false_eq_true, if_false]
    refine ⟨result, venue.submitted order after, ?_⟩
    change ExchangeVenue.onMarket
      (ContinuousMatchingEngine.submitOrder order)
      (venue.register order) = _
    exact zoom_ok submits

/-- A submission keeps the venue sound, and a new order never raises. -/
theorem submitOrder_sound (sound : VenueSound venue)
    (allowed : (VenueCall.submitOrder order).Allowed venue)
    (whole : Whole order.quantity) :
    Ends (ExchangeVenue.submitOrder order) venue
      (fun result next =>
        SubmitReturns venue order result next ∧ VenueSound next)
      (fun _ next => next = venue) := by
  refine (submitOrder_ends sound.shape allowed).mono ?_ ?_
  · intro result next returns
    refine ⟨returns, ?_⟩
    cases returns with
    | refused _ => exact sound
    | collected takes _ => exact sound.collected takes whole
    | matched takes _ evaluates _ _ _ _ =>
        rcases takes.matches_ sound whole with
          ⟨expected, after, submits, afterSound, trading⟩
        rcases EStateM.Result.ok.inj (submits.symm.trans evaluates) with
          ⟨rfl, rfl⟩
        exact sound.submitted takes afterSound trading
  · intro exception next raises
    cases raises with
    | refused => rfl
    | matched takes _ evaluates _ =>
        rcases takes.matches_ sound whole with ⟨expected, after, submits, _⟩
        cases submits.symm.trans evaluates

end Submit

/-! ## Cancelling an order -/

section Cancel

variable {venue next : ExchangeVenue} {order : Order}

theorem MarketSound.congr_heap {market after : Market}
    (sound : MarketSound market) (shape : MarketShape after)
    (books : after.Quantities) (heap : after.heap = market.heap) :
    MarketSound after where
  shape := shape
  books := books
  fillable := heap ▸ sound.fillable
  accounted := heap ▸ sound.accounted
  between := heap ▸ sound.between

/-- A collected order still waits when other orders stop resting. -/
theorem Waiting.fewer {market after : Market} {order : Order}
    (waits : Waiting market order) (heap : after.heap = market.heap)
    (rests : after.Rests order → market.Rests order) :
    Waiting after order where
  taken := heap ▸ waits.taken
  away afterRests := waits.away (rests afterRests)
  unfilled := heap ▸ waits.unfilled

/-- The collected orders still wait when orders have stopped resting. -/
theorem PendingWait.fewer (waits : PendingWait venue)
    (pendingOrders : next.pendingOrders = venue.pendingOrders)
    (heap : next.market.heap = venue.market.heap)
    (rests : ∀ candidate, next.market.Rests candidate →
      venue.market.Rests candidate) : PendingWait next where
  waiting := by
    intro candidate pending
    rw [ExchangeVenue.Pending, pendingOrders] at pending
    exact (waits.waiting candidate pending).fewer heap (rests candidate)
  distinct := by
    rw [pendingOrders]
    exact waits.distinct

theorem CancelledFrom.pendingWait
    (cancelled : CancelledFrom venue order next)
    (waits : PendingWait venue) : PendingWait next :=
  waits.fewer cancelled.pendingOrders cancelled.market.heap
    fun candidate rests => ((cancelled.market.rests candidate).mp rests).1

theorem Closing.pendingWait (closing : Closing venue next)
    (waits : PendingWait venue) : PendingWait next :=
  waits.fewer closing.pendingOrders closing.heap closing.rests

theorem VenueSound.cancelled (sound : VenueSound venue)
    (rests : venue.market.Rests order)
    (cancelled : CancelledFrom venue order next) : VenueSound next where
  shape := (cancelled.advances sound.shape).1
  market := sound.market.congr_heap cancelled.market.shape
    (cancelled.market.quantities sound.market.books)
    cancelled.market.heap
  waiting := (cancelled.pendingWait sound.pendingWait).waiting
  distinct := (cancelled.pendingWait sound.pendingWait).distinct
  known := by
    intro candidate live
    rw [cancelled.rest]
    rcases live with stillRests | pending
    · have facts := (cancelled.market.rests candidate).mp stillRests
      exact Finset.mem_erase.mpr
        ⟨facts.2, sound.known candidate (Or.inl facts.1)⟩
    · rw [ExchangeVenue.Pending, cancelled.pendingOrders] at pending
      exact Finset.mem_erase.mpr
        ⟨sound.apart rests pending, sound.known candidate (Or.inr pending)⟩

/-- All resting orders have been cancelled at the close. -/
theorem VenueSound.closing (sound : VenueSound venue)
    (closing : Closing venue next)
    (empty : ∀ order, ¬ next.market.Rests order) : VenueSound next where
  shape := closing.shape
  market := sound.market.congr_heap closing.shape.market
    (closing.quantities sound.market.books) closing.heap
  waiting := (closing.pendingWait sound.pendingWait).waiting
  distinct := (closing.pendingWait sound.pendingWait).distinct
  known := by
    rintro candidate (rests | pending)
    · exact absurd rests (empty candidate)
    · rw [ExchangeVenue.Pending, closing.pendingOrders] at pending
      rcases closing.known _ (sound.known candidate (Or.inr pending)) with
        known | ⟨order, rests, equal⟩
      · exact known
      · exact absurd equal.symm (sound.apart rests pending)

end Cancel

/-! ## Batches and phase transitions -/

section Batch

variable {venue : ExchangeVenue}

theorem ExchangeVenue.pending_of_mem {order : Order}
    (member : order ∈ ordersOf venue.pendingOrders.entries) :
    venue.Pending order := by
  rcases List.mem_flatMap.mp member with ⟨entry, entryMember, inEntry⟩
  exact ⟨entry.1, entry.2,
    (venue.pendingOrders.get?_eq_some_iff _ _).mpr entryMember, inEntry⟩

theorem ExchangeVenue.mem_of_pending {order : Order}
    (pending : venue.Pending order) :
    order ∈ ordersOf venue.pendingOrders.entries := by
  rcases pending with ⟨instrumentId, orders, found, member⟩
  exact List.mem_flatMap.mpr
    ⟨(instrumentId, orders),
      (venue.pendingOrders.get?_eq_some_iff _ _).mp found, member⟩

/-- The collected orders of an instrument are orders of it. -/
theorem VenueShape.inside (shape : VenueShape venue) :
    ∀ collected ∈ venue.pendingOrders.entries, ∀ order ∈ collected.2,
      order.instrumentId = collected.1 :=
  fun _ member order inCollected =>
    (shape.pending _ _
      ((venue.pendingOrders.get?_eq_some_iff _ _).mpr member) order
      inCollected).1

/-- No order has been collected twice. -/
theorem PendingWait.nodup_ordersOf (waits : PendingWait venue)
    (shape : VenueShape venue) :
    (ordersOf venue.pendingOrders.entries).Nodup := by
  rw [ordersOf, List.nodup_flatMap]
  constructor
  · intro entry member
    exact waits.distinct entry.1 entry.2
      ((venue.pendingOrders.get?_eq_some_iff _ _).mpr member)
  · have keys := List.pairwise_map.mp venue.pendingOrders.distinctKeys
    refine List.Pairwise.imp_of_mem ?_ keys
    intro first second firstMember secondMember different order inFirst
      inSecond
    apply different
    rw [← shape.inside first firstMember order inFirst]
    exact shape.inside second secondMember order inSecond

/-- All the collected orders wait, each once. -/
theorem VenueSound.batch (sound : VenueSound venue) :
    BatchSound (ordersOf venue.pendingOrders.entries)
      { market := venue.market, results := ∅ } where
  sound := sound.market
  waiting order member :=
    sound.waiting order (ExchangeVenue.pending_of_mem member)
  distinct := sound.pendingWait.nodup_ordersOf sound.shape

/-- Running the batch engine never raises. -/
theorem runBatchEngine_sound (sound : VenueSound venue)
    (draw : String → ℚ) :
    Ends (ExchangeVenue.runBatchEngine draw) venue
      (fun _ next => VenueSound next)
      (fun _ _ => False) := by
  have batch := runBatch_sound draw sound.batch sound.shape.inside
  have applied := runBatchEngine_apply venue draw
  cases evaluated : BatchMatchingEngine.runBatch draw
      venue.pendingOrders { market := venue.market, results := ∅ } with
  | error exception context => exact (batch.elim_error evaluated).elim
  | ok results context =>
      rw [evaluated] at applied
      apply Ends.of_ok applied
      have traded := (runBatch_traded sound.shape draw).elim_ok evaluated
      have none : ∀ order,
          ¬ ExchangeVenue.Pending
            { venue with market := context.market, pendingOrders := ∅ }
            order := by
        rintro order ⟨instrumentId, orders, found, _⟩
        simp at found
      constructor
      · refine (advances_of_batch sound.shape traded ?_).1
        intro instrumentId orders found
        simp at found
      · exact batch.elim_ok evaluated
      · exact fun order pending => absurd pending (none order)
      · intro instrumentId orders found
        simp at found
      · rcases traded with ⟨_, made, trading⟩
        rintro order (rests | pending)
        · exact sound.known order (trading.rests order rests)
        · exact absurd pending (none order)

theorem executeOpeningAuction_sound (sound : VenueSound venue)
    (draw : String → ℚ) :
    Ends (ExchangeVenue.executeOpeningAuction draw) venue
      (fun _ next => VenueSound next)
      (fun _ _ => False) := by
  rw [ExchangeVenue.executeOpeningAuction]
  apply (runBatchEngine_sound sound draw).bind
  intro results next after
  exact after

theorem executeBatch_sound (sound : VenueSound venue)
    (draw : String → ℚ) :
    Ends (ExchangeVenue.executeBatch draw) venue
      (fun _ next => VenueSound next)
      (fun _ _ => False) := by
  rw [ExchangeVenue.executeBatch, ends_get_bind]
  by_cases batch : venue.currentPhaseState.executionStyle = .batch
  · rw [if_pos batch]
    exact runBatchEngine_sound sound draw
  · rw [if_neg batch]
    exact sound

theorem cancelAllOrders_sound (sound : VenueSound venue) :
    Ends ExchangeVenue.cancelAllOrders venue
      (fun _ next => VenueSound next)
      (fun _ _ => False) :=
  (cancelAllOrders_ends sound.shape).mono
    (fun _ _ closed => sound.closing closed.1 closed.2)
    (fun _ _ impossible => impossible)

/-- No phase transition raises. -/
theorem checkPhaseTransitions_sound (sound : VenueSound venue)
    (observed : PhaseState) (draw : String → ℚ) :
    Ends (ExchangeVenue.checkPhaseTransitions observed draw) venue
      (fun _ next => VenueSound next)
      (fun _ _ => False) := by
  have observing := sound.observing observed
  have transition : ∀ previous current,
      Ends (ExchangeVenue.handleTransition draw previous current)
        (venue.observing observed)
        (fun _ next => VenueSound next)
        (fun _ _ => False) := by
    intro previous current
    cases previous <;> cases current <;>
      first
        | exact observing
        | exact executeOpeningAuction_sound observing draw
        | exact cancelAllOrders_sound observing
  have applied := checkPhaseTransitions_apply venue observed draw
  cases last : venue.lastPhase with
  | none =>
      rw [last] at applied
      exact Ends.of_ok applied observing
  | some previous =>
      rw [last] at applied
      by_cases same : previous = observed.phaseType
      · simp only [if_pos same] at applied
        exact Ends.of_ok applied observing
      · simp only [if_neg same] at applied
        exact Ends.of_eq applied
          (transition previous observed.phaseType)

end Batch

/-! ## Every call and every run -/

/-- The submitted quantities are whole. -/
def VenueCall.WholeQuantity : VenueCall → Prop
  | .submitOrder order => Whole order.quantity
  | _ => True

instance (call : VenueCall) : Decidable call.WholeQuantity := by
  rcases call
  case submitOrder order =>
      exact inferInstanceAs (Decidable (Whole order.quantity))
  all_goals exact inferInstanceAs (Decidable True)

/-- Every call with a whole quantity keeps the venue sound. -/
theorem venueStep_sound {venue next : ExchangeVenue} {call : VenueCall}
    (sound : VenueSound venue) (whole : call.WholeQuantity)
    (step : VenueStep venue call next) : VenueSound next := by
  rcases step with ⟨allowed, rfl⟩
  cases call with
  | listInstrument instrument =>
      apply finalState_of_ends
      refine (listInstrument_ends sound.shape instrument).mono ?_ ?_
      · rintro _ next ⟨advances, rfl⟩
        exact sound.listed advances.1
      · rintro _ next rfl
        exact sound
  | submitOrder order =>
      apply finalState_of_ends
      refine (submitOrder_sound sound allowed whole).mono
        (fun _ _ facts => facts.2) ?_
      rintro _ next rfl
      exact sound
  | cancelOrder orderId traderId =>
      rw [VenueCall.execute]
      rcases cancelOrder_cases_venue sound.shape orderId traderId with
        ⟨order, next, cancellable, evaluates, cancelled⟩ |
          ⟨_, evaluates | ⟨exception, evaluates⟩⟩
      · rw [evaluates]
        exact sound.cancelled cancellable.rests cancelled
      · rw [evaluates]
        exact sound
      · rw [evaluates]
        exact sound
  | executeBatch draw =>
      apply finalState_of_ends
      exact (executeBatch_sound sound draw).mono
        (fun _ _ after => after) (fun _ _ impossible => impossible.elim)
  | executeOpeningAuction draw =>
      apply finalState_of_ends
      exact (executeOpeningAuction_sound sound draw).mono
        (fun _ _ after => after) (fun _ _ impossible => impossible.elim)
  | cancelAllOrders =>
      apply finalState_of_ends
      exact (cancelAllOrders_sound sound).mono
        (fun _ _ after => after) (fun _ _ impossible => impossible.elim)
  | checkPhaseTransitions observed draw =>
      apply finalState_of_ends
      exact (checkPhaseTransitions_sound sound observed draw).mono
        (fun _ _ after => after) (fun _ _ impossible => impossible.elim)

/-- Every state of a run of whole quantities is sound. -/
theorem VenueSound.of_run {start venue : ExchangeVenue}
    {calls : List VenueCall} (sound : VenueSound start)
    (run : Run VenueStep start calls venue)
    (whole : ∀ call ∈ calls, call.WholeQuantity) : VenueSound venue := by
  have reached := run.induction_history
    (fun history state =>
      (∀ call ∈ history, call.WholeQuantity) → VenueSound state)
    (fun _ => sound)
    (by
      intro history state call next _ kept step allWhole
      exact venueStep_sound
        (kept fun other member =>
          allWhole other (List.mem_append_left _ member))
        (allWhole call
          (List.mem_append_right _ (List.mem_singleton_self call)))
        step)
  exact reached whole

/-! ## The accounts of the venue -/

/-- What the accounts of a venue promise. -/
structure VenueAccounts (venue : ExchangeVenue) : Prop where
  orders : ∀ order ∈ venue.market.heap.orders,
    tradedQuantity order.orderId venue.market.heap.trades =
        order.quantity - venue.market.heap.remaining order ∧
      0 ≤ venue.market.heap.remaining order ∧
      venue.market.heap.remaining order ≤ order.quantity
  trades : ∀ trade ∈ venue.market.heap.trades,
    ∃ buy ∈ venue.market.heap.orders, ∃ sell ∈ venue.market.heap.orders,
      TradeBetween trade buy sell ∧
        (∀ other ∈ venue.market.heap.orders,
          other.orderId = trade.buyerOrderId → other = buy) ∧
        ∀ other ∈ venue.market.heap.orders,
          other.orderId = trade.sellerOrderId → other = sell
  cancelled : ∀ orderId traderId next,
    ExchangeVenue.cancelOrder orderId traderId venue = .ok true next →
      ∀ calls later, Run VenueStep next calls later →
        tradedQuantity orderId later.market.heap.trades =
          tradedQuantity orderId venue.market.heap.trades

/-- A run which does not name an order does not add to its fills. -/
theorem NoLaterTrade.tradedQuantity_eq {orderId : String}
    {before after : ExchangeVenue}
    (unnamed : NoLaterTrade orderId before after) :
    tradedQuantity orderId after.market.heap.trades =
      tradedQuantity orderId before.market.heap.trades := by
  rcases unnamed with ⟨made, recorded, none⟩
  rw [recorded, tradedQuantity_append, tradedQuantity_eq_zero _ none,
    add_zero]

theorem VenueSound.accounts {venue : ExchangeVenue}
    (sound : VenueSound venue) : VenueAccounts venue where
  orders := by
    intro order taken
    have fillable := sound.market.fillable order taken
    exact ⟨sound.market.accounted order taken, fillable.nonnegative,
      fillable.bounded⟩
  trades := by
    intro trade member
    rcases sound.market.between trade member with
      ⟨buy, buyTaken, sell, sellTaken, between⟩
    refine ⟨buy, buyTaken, sell, sellTaken, between, ?_, ?_⟩
    · intro other taken equal
      exact sound.shape.market.eq_of_orderId_eq taken buyTaken
        (equal.trans between.buyerOrder)
    · intro other taken equal
      exact sound.shape.market.eq_of_orderId_eq taken sellTaken
        (equal.trans between.sellerOrder)
  cancelled := by
    intro orderId traderId next succeeds calls later run
    rcases cancelOrder_cases_venue sound.shape orderId traderId with
      ⟨order, reached, cancellable, evaluates, cancelled⟩ |
        ⟨_, evaluates | ⟨exception, evaluates⟩⟩
    · rcases EStateM.Result.ok.inj (evaluates.symm.trans succeeds) with
        ⟨_, rfl⟩
      rcases cancellable.orderId with rfl
      have gone := cancelled.gone sound.shape cancellable.rests
        fun pending => sound.apart cancellable.rests pending rfl
      have advances := cancelled.advances sound.shape
      rw [(gone.run advances.1 run).2.tradedQuantity_eq,
        cancelled.market.heap]
    · cases (evaluates.symm.trans succeeds)
    · cases (evaluates.symm.trans succeeds)

/--
In every run of whole quantities the trades of every order add up to what it
has lost, every trade is one between a buy order and a sell order within
their limits, and a cancelled order is never traded again.
-/
theorem venue_accounts {cached baseline : PhaseState}
    {calls : List VenueCall} {venue : ExchangeVenue}
    (run :
      Run VenueStep (ExchangeVenue.new cached baseline) calls venue)
    (whole : ∀ call ∈ calls, call.WholeQuantity) :
    VenueAccounts venue :=
  (VenueSound.of_run (VenueSound.new cached baseline) run whole).accounts

/-- An auction in which a buy order trades with a part of a sell order. -/
def Sample.auctionCalls : List VenueCall :=
  [ .checkPhaseTransitions (PhaseState.default .preOpen) fun _ => 0,
    .listInstrument { symbol := "CALL" },
    .submitOrder sellTen,
    .submitOrder buyFour,
    .checkPhaseTransitions (PhaseState.default .openingAuction)
      fun _ => 0 ]

theorem venue_accounts_auction :
    VenueAccounts
      (replay VenueCall.execute
        (ExchangeVenue.new (PhaseState.default .closed)
          (PhaseState.default .closed))
        Sample.auctionCalls) :=
  venue_accounts (run_replay (by decide +kernel)) (by decide +kernel)

end InternTradingGame
