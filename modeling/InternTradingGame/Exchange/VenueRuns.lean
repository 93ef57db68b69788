import InternTradingGame.Exchange.VenueShape

/-!
# Every call keeps the shape of the venue

The remaining operations: batches, the close of the day and the phase
transitions.  Together with the submissions and cancels they give the step
lemma `venueStep_advances` and the run lemmas.

An order that is neither live nor new stays so: `Gone` is kept by every call,
and no later trade names it.
-/

namespace InternTradingGame

open Effects

/-! ## Cancelling -/

section Cancel

variable {venue next : ExchangeVenue} {order : Order}

theorem CancelledFrom.pendingOrders
    (cancelled : CancelledFrom venue order next) :
    next.pendingOrders = venue.pendingOrders := by
  rw [cancelled.rest]

theorem CancelledFrom.instruments
    (cancelled : CancelledFrom venue order next) :
    next.instruments = venue.instruments := by
  rw [cancelled.rest]

theorem CancelledFrom.advances (shape : VenueShape venue)
    (cancelled : CancelledFrom venue order next) :
    Advances venue next := by
  have nextShape : VenueShape next :=
    { market := cancelled.market.shape
      instruments := by
        intro instrumentId contains
        rw [OrderedDict.Contains, cancelled.market.keys] at contains
        rw [cancelled.instruments]
        exact shape.instruments instrumentId contains
      pending := by
        rw [cancelled.pendingOrders, cancelled.market.heap]
        exact shape.pending }
  refine ⟨nextShape,
    VenueProgress.of_live_subset cancelled.market.heap ?_⟩
  rintro candidate (rests | pending)
  · exact Or.inl ((cancelled.market.rests candidate).mp rests).1
  · refine Or.inr ?_
    rw [ExchangeVenue.Pending, cancelled.pendingOrders] at pending
    exact pending

end Cancel

/-! ## Batches -/

section Batch

variable {venue : ExchangeVenue}

/-- A batch has worked on the market and left some orders collected. -/
theorem advances_of_batch (shape : VenueShape venue) {market : Market}
    {pending : PendingOrders}
    (traded : Traded venue.Live venue.market market)
    (sub : ∀ instrumentId orders,
      pending.get? instrumentId = some orders →
        venue.pendingOrders.get? instrumentId = some orders) :
    Advances venue
      { venue with market := market, pendingOrders := pending } := by
  rcases traded with ⟨after, made, trading⟩
  have nextShape : VenueShape
      { venue with market := market, pendingOrders := pending } :=
    { market := after
      instruments := by
        intro instrumentId contains
        apply shape.instruments
        change market.orderBooks.Contains instrumentId at contains
        rw [OrderedDict.Contains, trading.keys] at contains
        exact contains
      pending := by
        intro instrumentId orders found order member
        have facts := shape.pending instrumentId orders
          (sub instrumentId orders found) order member
        exact ⟨facts.1, trading.orders ▸ facts.2⟩ }
  refine ⟨nextShape, VenueProgress.of_trading trading ?_⟩
  rintro order ⟨instrumentId, orders, found, member⟩
  exact Or.inr
    ⟨instrumentId, orders, sub instrumentId orders found, member⟩

/--
A batch trades live orders and keeps what its steps keep, however it ends.
-/
theorem runBatch_kept (shape : VenueShape venue) (draw : String → ℚ)
    {kept : Market → Prop} (keeps : BatchKeeps kept)
    (held : kept venue.market) :
    Ends (BatchMatchingEngine.runBatch draw venue.pendingOrders)
      { market := venue.market, results := ∅ }
      (fun _ => BatchKept venue.Live venue.market kept)
      (fun _ => BatchKept venue.Live venue.market kept) := by
  have known : ∀ order, venue.Live order →
      order ∈ venue.market.heap.orders :=
    fun order live => shape.live_taken live
  have collected : ∀ entry ∈ venue.pendingOrders.entries,
      ∀ order ∈ entry.2,
        venue.Live order ∧ order.instrumentId = entry.1 := by
    intro entry member order inEntry
    have stored : venue.pendingOrders.get? entry.1 = some entry.2 :=
      (venue.pendingOrders.get?_eq_some_iff _ _).mpr member
    exact ⟨Or.inr ⟨entry.1, entry.2, stored, inEntry⟩,
      (shape.pending entry.1 entry.2 stored order inEntry).1⟩
  exact runBatch_keeps draw keeps known collected _
    ⟨Traded.refl shape.market fun order rests => Or.inl rests, held⟩

theorem runBatch_traded (shape : VenueShape venue) (draw : String → ℚ) :
    Ends (BatchMatchingEngine.runBatch draw venue.pendingOrders)
      { market := venue.market, results := ∅ }
      (fun _ context => Traded venue.Live venue.market context.market)
      (fun _ context => Traded venue.Live venue.market context.market) :=
  (runBatch_kept shape draw BatchKeeps.trivial True.intro).mono
    (fun _ _ kept => kept.1) (fun _ _ kept => kept.1)

/-- The batch engine forgets the collected orders if the batch returns. -/
theorem runBatchEngine_apply (venue : ExchangeVenue)
    (draw : String → ℚ) :
    ExchangeVenue.runBatchEngine draw venue =
      match BatchMatchingEngine.runBatch draw venue.pendingOrders
          { market := venue.market, results := ∅ } with
      | .ok results context =>
          .ok results
            { venue with market := context.market, pendingOrders := ∅ }
      | .error exception context =>
          .error exception { venue with market := context.market } := by
  simp only [ExchangeVenue.runBatchEngine, ExchangeVenue.onBatch, zoom,
    bind_apply, get_apply]
  cases BatchMatchingEngine.runBatch draw venue.pendingOrders
      { market := venue.market, results := ∅ } with
  | ok results context => rfl
  | error exception context => rfl

/-- The batch engine trades live orders, and forgets them if it returns. -/
theorem runBatchEngine_ends (shape : VenueShape venue)
    (draw : String → ℚ) :
    Ends (ExchangeVenue.runBatchEngine draw) venue
      (fun _ next =>
        Advances venue next ∧
          next =
            { venue with
              market := next.market
              pendingOrders := ∅ })
      (fun _ next =>
        Advances venue next ∧
          next = { venue with market := next.market }) := by
  have batch := runBatch_traded shape draw
  have applied := runBatchEngine_apply venue draw
  cases evaluated : BatchMatchingEngine.runBatch draw
      venue.pendingOrders { market := venue.market, results := ∅ } with
  | ok results context =>
      rw [evaluated] at applied
      refine Ends.of_ok applied
        ⟨advances_of_batch shape (batch.elim_ok evaluated) ?_, rfl⟩
      intro instrumentId orders found
      simp at found
  | error exception context =>
      rw [evaluated] at applied
      exact Ends.of_error applied
        ⟨advances_of_batch shape (batch.elim_error evaluated)
          (fun _ _ found => found), rfl⟩

/-- The venue after the batch engine has run or raised. -/
def AfterBatch (venue next : ExchangeVenue) : Prop :=
  Advances venue next ∧
    ∃ pending, next =
      { venue with market := next.market, pendingOrders := pending }

theorem executeOpeningAuction_ends (shape : VenueShape venue)
    (draw : String → ℚ) :
    Ends (ExchangeVenue.executeOpeningAuction draw) venue
      (fun _ next => AfterBatch venue next)
      (fun _ next => AfterBatch venue next) := by
  have engine : Ends (ExchangeVenue.runBatchEngine draw) venue
      (fun _ next => AfterBatch venue next)
      (fun _ next => AfterBatch venue next) := by
    refine (runBatchEngine_ends shape draw).mono ?_ ?_
    · rintro results next ⟨advances, equal⟩
      exact ⟨advances, ∅, equal⟩
    · rintro exception next ⟨advances, equal⟩
      exact ⟨advances, venue.pendingOrders, equal⟩
  rw [ExchangeVenue.executeOpeningAuction]
  apply engine.bind
  intro results next after
  exact after

theorem executeBatch_ends (shape : VenueShape venue)
    (draw : String → ℚ) :
    Ends (ExchangeVenue.executeBatch draw) venue
      (fun _ next => Advances venue next)
      (fun _ next => Advances venue next) := by
  rw [ExchangeVenue.executeBatch, ends_get_bind]
  by_cases batch : venue.currentPhaseState.executionStyle = .batch
  · rw [if_pos batch]
    exact (runBatchEngine_ends shape draw).mono
      (fun _ _ facts => facts.1) (fun _ _ facts => facts.1)
  · rw [if_neg batch]
    exact Advances.refl shape

end Batch

/-! ## The close of the day -/

section Close

variable {venue : ExchangeVenue}

/-- Some resting orders have been cancelled. -/
structure Closing (venue next : ExchangeVenue) : Prop where
  shape : VenueShape next
  heap : next.market.heap = venue.market.heap
  keys : next.market.orderBooks.keys = venue.market.orderBooks.keys
  rests : ∀ order, next.market.Rests order → venue.market.Rests order
  quantities : venue.market.Quantities → next.market.Quantities
  known : ∀ orderId ∈ venue.allOrderIds,
    orderId ∈ next.allOrderIds ∨
      ∃ order, venue.market.Rests order ∧ order.orderId = orderId
  rest : ∃ known, next =
    { venue with market := next.market, allOrderIds := known }

theorem Closing.refl (shape : VenueShape venue) :
    Closing venue venue where
  shape := shape
  heap := rfl
  keys := rfl
  rests _ rests := rests
  quantities quantities := quantities
  known _ known := Or.inl known
  rest := ⟨venue.allOrderIds, rfl⟩

theorem Closing.trans {middle next : ExchangeVenue}
    (first : Closing venue middle) (second : Closing middle next) :
    Closing venue next where
  shape := second.shape
  heap := second.heap.trans first.heap
  keys := second.keys.trans first.keys
  rests order rests := first.rests order (second.rests order rests)
  quantities quantities := second.quantities (first.quantities quantities)
  known := by
    intro orderId known
    rcases first.known orderId known with inMiddle | rested
    · rcases second.known orderId inMiddle with
        inNext | ⟨order, rests, equal⟩
      · exact Or.inl inNext
      · exact Or.inr ⟨order, first.rests order rests, equal⟩
    · exact Or.inr rested
  rest := by
    rcases first.rest with ⟨_, middleEqual⟩
    rcases second.rest with ⟨known, nextEqual⟩
    refine ⟨known, nextEqual.trans ?_⟩
    rw [middleEqual]

theorem Closing.pendingOrders {next : ExchangeVenue}
    (closing : Closing venue next) :
    next.pendingOrders = venue.pendingOrders := by
  rcases closing.rest with ⟨known, equal⟩
  rw [equal]

theorem Closing.advances {next : ExchangeVenue}
    (closing : Closing venue next) : Advances venue next := by
  rcases closing.rest with ⟨known, equal⟩
  refine ⟨closing.shape,
    VenueProgress.of_live_subset closing.heap ?_⟩
  rintro order (rests | pending)
  · exact Or.inl (closing.rests order rests)
  · rw [equal] at pending
    exact Or.inr pending

/-- Cancelling one order of a book at the close. -/
theorem cancelAtClose_ends {instrumentId : String} {order : Order}
    (shape : VenueShape venue)
    (listed : venue.market.orderBooks.Contains instrumentId) :
    Ends (ExchangeVenue.cancelAtClose instrumentId order) venue
      (fun _ next =>
        Closing venue next ∧
          ∀ book, next.market.orderBooks.get? instrumentId = some book →
            ∀ other ∈ book.resting, other.orderId ≠ order.orderId)
      (fun _ _ => False) := by
  rcases (OrderedDict.contains_iff_exists _ _).mp listed with ⟨book, found⟩
  rw [ExchangeVenue.cancelAtClose]
  rcases onBook_cancelOrder_cases shape.market found order.orderId with
    ⟨side, other, part, onSide, sameId, evaluates, cancelled⟩ |
      ⟨missing, evaluates⟩
  · have zoomed : ExchangeVenue.onMarket
        (Market.onBook instrumentId
          (OrderBook.cancelOrder order.orderId)) venue =
        .ok (some other)
          { venue with
            market := venue.market.withBook instrumentId part } :=
      zoom_ok evaluates
    apply Ends.bind_ok zoomed
    have inMarket := cancelledIn_of_cancelled shape.market found onSide
      cancelled
    have from_ : CancelledFrom venue other
        { venue with
          market := venue.market.withBook instrumentId part
          allOrderIds := venue.allOrderIds.erase other.orderId } :=
      ⟨inMarket, rfl⟩
    rw [ends_modify, ← sameId]
    have closing : Closing venue
        { venue with
          market := venue.market.withBook instrumentId part
          allOrderIds := venue.allOrderIds.erase other.orderId } :=
      { shape := (from_.advances shape).1
        heap := inMarket.heap
        keys := inMarket.keys
        rests := fun candidate rests =>
          ((inMarket.rests candidate).mp rests).1
        quantities := inMarket.quantities
        known := by
          intro orderId known
          by_cases same : orderId = other.orderId
          · exact Or.inr ⟨other,
              ⟨instrumentId, book, found,
                OrderBook.mem_resting_of_mem onSide⟩, same.symm⟩
          · exact Or.inl (Finset.mem_erase.mpr ⟨same, known⟩)
        rest := ⟨_, rfl⟩ }
    refine ⟨closing, ?_⟩
    intro after afterFound candidate member
    exact ((inMarket.rests candidate).mp
      ⟨instrumentId, after, afterFound, member⟩).2
  · have zoomed : ExchangeVenue.onMarket
        (Market.onBook instrumentId
          (OrderBook.cancelOrder order.orderId)) venue =
        .ok none venue := zoom_ok evaluates
    apply Ends.bind_ok zoomed
    refine ⟨Closing.refl shape, ?_⟩
    intro after afterFound
    rcases Option.some.inj (afterFound.symm.trans found) with rfl
    exact missing

/-- Nothing rests in the book any more but the orders still to come. -/
def OnlyListed (venue : ExchangeVenue) (instrumentId : String)
    (orders : List Order) : Prop :=
  ∀ book, venue.market.orderBooks.get? instrumentId = some book →
    ∀ order ∈ book.resting, order ∈ orders

/-- What rests in a book after some cancels rested in it before. -/
theorem Closing.onlyListed {next : ExchangeVenue}
    (shape : VenueShape venue) (closing : Closing venue next)
    {instrumentId : String} {orders : List Order}
    (only : OnlyListed venue instrumentId orders) :
    OnlyListed next instrumentId orders := by
  intro book found order member
  rcases closing.rests order ⟨instrumentId, book, found, member⟩ with
    ⟨other, otherBook, otherFound, inOther⟩
  have same : other = instrumentId :=
    (shape.market.instrument_of_rests otherFound inOther).symm.trans
      (closing.shape.market.instrument_of_rests found member)
  exact only otherBook (same ▸ otherFound) order inOther

theorem cancelBook_ends {instrumentId : String}
    (shape : VenueShape venue)
    (listed : venue.market.orderBooks.Contains instrumentId) :
    Ends (ExchangeVenue.cancelBook instrumentId) venue
      (fun _ next =>
        Closing venue next ∧ OnlyListed next instrumentId [])
      (fun _ _ => False) := by
  rcases (OrderedDict.contains_iff_exists _ _).mp listed with ⟨book, found⟩
  rw [ExchangeVenue.cancelBook, ends_get_bind, found]
  refine Ends.forM
    (fun orders reached =>
      Closing venue reached ∧ OnlyListed reached instrumentId orders)
    ?_ book.resting ⟨Closing.refl shape, ?_⟩
  · rintro order rest reached ⟨closing, only⟩
    have stillListed :
        reached.market.orderBooks.Contains instrumentId := by
      rw [OrderedDict.Contains, closing.keys]
      exact listed
    refine (cancelAtClose_ends closing.shape stillListed).mono ?_ ?_
    · rintro _ next ⟨step, without⟩
      refine ⟨closing.trans step, ?_⟩
      intro after afterFound candidate member
      have remains := step.onlyListed closing.shape only after afterFound
        candidate member
      rcases List.mem_cons.mp remains with rfl | later
      · exact absurd rfl (without after afterFound candidate member)
      · exact later
    · exact fun _ _ impossible => impossible
  · intro other otherFound order member
    rcases Option.some.inj (otherFound.symm.trans found) with rfl
    exact member

/-- At the close every resting order is cancelled. -/
theorem cancelAllOrders_ends (shape : VenueShape venue) :
    Ends ExchangeVenue.cancelAllOrders venue
      (fun _ next =>
        Closing venue next ∧ ∀ order, ¬ next.market.Rests order)
      (fun _ _ => False) := by
  have loop : Ends
      (venue.market.orderBooks.keys.forM ExchangeVenue.cancelBook) venue
      (fun _ next =>
        Closing venue next ∧
          (∀ key ∈ [], venue.market.orderBooks.Contains key) ∧
          ∀ instrumentId, instrumentId ∉ [] →
            OnlyListed next instrumentId [])
      (fun _ _ => False) := by
    refine Ends.forM
      (fun keys reached =>
        Closing venue reached ∧
          (∀ key ∈ keys, venue.market.orderBooks.Contains key) ∧
          ∀ instrumentId, instrumentId ∉ keys →
            OnlyListed reached instrumentId [])
      ?_ venue.market.orderBooks.keys
      ⟨Closing.refl shape, fun _ member => member, ?_⟩
    · rintro key rest reached ⟨closing, listed, cleared⟩
      have stillListed : reached.market.orderBooks.Contains key := by
        rw [OrderedDict.Contains, closing.keys]
        exact listed key List.mem_cons_self
      refine (cancelBook_ends closing.shape stillListed).mono ?_ ?_
      · rintro _ next ⟨step, only⟩
        refine ⟨closing.trans step,
          fun other member =>
            listed other (List.mem_cons_of_mem _ member), ?_⟩
        intro instrumentId notLater
        by_cases same : instrumentId = key
        · exact same ▸ only
        · have notListed : instrumentId ∉ key :: rest := by
            intro inList
            rcases List.mem_cons.mp inList with equal | later
            · exact same equal
            · exact notLater later
          exact step.onlyListed closing.shape
            (cleared instrumentId notListed)
      · exact fun _ _ impossible => impossible
    · intro instrumentId notListed book found
      exact absurd (OrderedDict.contains_of_get? found) notListed
  rw [ExchangeVenue.cancelAllOrders, ends_get_bind]
  refine loop.mono ?_ (fun _ _ impossible => impossible)
  rintro _ next ⟨closing, _, cleared⟩
  refine ⟨closing, ?_⟩
  rintro order ⟨instrumentId, book, found, member⟩
  exact absurd
    (cleared instrumentId List.not_mem_nil book found order member)
    List.not_mem_nil

end Close

/-! ## Phase transitions -/

section Transitions

variable {venue : ExchangeVenue}

theorem handleTransition_ends (shape : VenueShape venue)
    (draw : String → ℚ) (previous current : PhaseType) :
    Ends (ExchangeVenue.handleTransition draw previous current) venue
      (fun _ next => Advances venue next)
      (fun _ next => Advances venue next) := by
  have auction : Ends (ExchangeVenue.executeOpeningAuction draw) venue
      (fun _ next => Advances venue next)
      (fun _ next => Advances venue next) :=
    (executeOpeningAuction_ends shape draw).mono
      (fun _ _ after => after.1) (fun _ _ after => after.1)
  have close : Ends ExchangeVenue.cancelAllOrders venue
      (fun _ next => Advances venue next)
      (fun _ next => Advances venue next) :=
    (cancelAllOrders_ends shape).mono
      (fun _ _ closed => closed.1.advances)
      (fun _ _ impossible => impossible.elim)
  have nothing : Advances venue venue := Advances.refl shape
  cases previous <;> cases current <;>
    first
      | exact nothing
      | exact auction
      | exact close

/-- The venue once it has observed a phase. -/
def ExchangeVenue.observing (venue : ExchangeVenue)
    (observed : PhaseState) : ExchangeVenue :=
  { venue with
    currentPhaseState := observed
    lastPhase := some observed.phaseType }

/-- A check records the phase and acts when the phase has changed. -/
theorem checkPhaseTransitions_apply (venue : ExchangeVenue)
    (observed : PhaseState) (draw : String → ℚ) :
    ExchangeVenue.checkPhaseTransitions observed draw venue =
      match venue.lastPhase with
      | none => .ok ⟨⟩ (venue.observing observed)
      | some last =>
          if last = observed.phaseType then
            .ok ⟨⟩ (venue.observing observed)
          else
            ExchangeVenue.handleTransition draw last observed.phaseType
              (venue.observing observed) := by
  rcases venue with ⟨market, instruments, known, phase, lastPhase, pending⟩
  cases lastPhase with
  | none => rfl
  | some last =>
      by_cases same : last = observed.phaseType
      · subst same
        simp [ExchangeVenue.checkPhaseTransitions,
          ExchangeVenue.observing]
      · simp [ExchangeVenue.checkPhaseTransitions,
          ExchangeVenue.observing, same]

theorem observing_shape (shape : VenueShape venue)
    (observed : PhaseState) : VenueShape (venue.observing observed) :=
  shape.congr rfl rfl rfl

/-- The phase fields do not matter for what a call can do. -/
theorem Advances.of_observing {next : ExchangeVenue}
    {observed : PhaseState}
    (advances : Advances (venue.observing observed) next) :
    Advances venue next :=
  ⟨advances.1, advances.2.orders, advances.2.trades, advances.2.live⟩

theorem checkPhaseTransitions_ends (shape : VenueShape venue)
    (observed : PhaseState) (draw : String → ℚ) :
    Ends (ExchangeVenue.checkPhaseTransitions observed draw) venue
      (fun _ next => Advances venue next)
      (fun _ next => Advances venue next) := by
  have observing := observing_shape shape observed
  have unchanged : Advances venue (venue.observing observed) :=
    (Advances.refl observing).of_observing
  have evaluated := checkPhaseTransitions_apply venue observed draw
  cases last : venue.lastPhase with
  | none =>
      rw [last] at evaluated
      exact Ends.of_ok evaluated unchanged
  | some previous =>
      rw [last] at evaluated
      by_cases same : previous = observed.phaseType
      · simp only [if_pos same] at evaluated
        exact Ends.of_ok evaluated unchanged
      · simp only [if_neg same] at evaluated
        apply Ends.of_eq evaluated
        exact (handleTransition_ends observing draw previous
          observed.phaseType).mono
          (fun _ _ advances => advances.of_observing)
          (fun _ _ advances => advances.of_observing)

end Transitions

/-! ## Every call and every run -/

theorem finalState_of_ends {α : Type} {program : VenueM α}
    {venue : ExchangeVenue} {holds : ExchangeVenue → Prop}
    (ends : Ends program venue (fun _ => holds) (fun _ => holds)) :
    holds (finalState (program venue)) := by
  cases evaluated : program venue with
  | ok value reached => exact ends.elim_ok evaluated
  | error exception reached => exact ends.elim_error evaluated

/-- What one call does, whichever it is. -/
theorem venueStep_advances {venue next : ExchangeVenue}
    {call : VenueCall} (shape : VenueShape venue)
    (step : VenueStep venue call next) : Advances venue next := by
  rcases step with ⟨allowed, rfl⟩
  cases call with
  | listInstrument instrument =>
      apply finalState_of_ends
      refine (listInstrument_ends shape instrument).mono
        (fun _ _ listed => listed.1) ?_
      rintro _ next rfl
      exact Advances.refl shape
  | submitOrder order =>
      apply finalState_of_ends
      exact (submitOrder_ends shape allowed).mono
        (fun _ _ returns => returns.advances shape)
        (fun _ _ raises => raises.advances shape)
  | cancelOrder orderId traderId =>
      rw [VenueCall.execute]
      rcases cancelOrder_cases_venue shape orderId traderId with
        ⟨order, next, _, evaluates, cancelled⟩ |
          ⟨_, evaluates | ⟨exception, evaluates⟩⟩
      · rw [evaluates]
        exact cancelled.advances shape
      · rw [evaluates]
        exact Advances.refl shape
      · rw [evaluates]
        exact Advances.refl shape
  | executeBatch draw =>
      exact finalState_of_ends (executeBatch_ends shape draw)
  | executeOpeningAuction draw =>
      apply finalState_of_ends
      exact (executeOpeningAuction_ends shape draw).mono
        (fun _ _ after => after.1) (fun _ _ after => after.1)
  | cancelAllOrders =>
      apply finalState_of_ends
      exact (cancelAllOrders_ends shape).mono
        (fun _ _ closed => closed.1.advances)
        (fun _ _ impossible => impossible.elim)
  | checkPhaseTransitions observed draw =>
      exact finalState_of_ends
        (checkPhaseTransitions_ends shape observed draw)

/-- Every state of every run has the shape. -/
theorem VenueShape.of_run {start venue : ExchangeVenue}
    {calls : List VenueCall} (shape : VenueShape start)
    (run : Run VenueStep start calls venue) : VenueShape venue :=
  run.invariant VenueShape shape
    fun _ _ _ shape step => (venueStep_advances shape step).1

/-! ## Orders which are gone -/

/-- The id has been taken and no live order has it. -/
structure Gone (orderId : String) (venue : ExchangeVenue) : Prop where
  taken : ∃ order ∈ venue.market.heap.orders, order.orderId = orderId
  dead : ∀ order, venue.Live order → order.orderId ≠ orderId

section Gone

variable {orderId : String} {venue next : ExchangeVenue}

/-- A cancelled order is gone unless it has been collected as well. -/
theorem CancelledFrom.gone {order : Order}
    (shape : VenueShape venue) (rests : venue.market.Rests order)
    (absent : ¬ venue.Pending order)
    (cancelled : CancelledFrom venue order next) :
    Gone order.orderId next where
  taken := by
    refine ⟨order, ?_, rfl⟩
    rw [cancelled.market.heap]
    exact shape.market.registered order rests
  dead := by
    rintro other (otherRests | pending) equal
    · exact ((cancelled.market.rests other).mp otherRests).2 equal
    · rw [ExchangeVenue.Pending, cancelled.pendingOrders] at pending
      have same := shape.market.eq_of_orderId_eq
        (shape.live_taken (Or.inr pending))
        (shape.market.registered order rests) equal
      exact absent (same ▸ pending)

/-- A party of a call does not have the id of an order which is gone. -/
theorem Gone.notParty (gone : Gone orderId venue)
    (advances : Advances venue next) {order : Order}
    (party : VenueParty venue next order) : order.orderId ≠ orderId := by
  rcases party with live | ⟨taken, fresh⟩
  · exact gone.dead order live
  · intro equal
    rcases gone.taken with ⟨old, oldTaken, oldId⟩
    have same : order = old :=
      advances.1.market.eq_of_orderId_eq taken
        (advances.2.orders oldTaken) (equal.trans oldId.symm)
    exact fresh (same ▸ oldTaken)

/-- A call which no order with an id is a party of leaves the id alone. -/
theorem Advances.unnamed (advances : Advances venue next)
    (others : ∀ order, VenueParty venue next order →
      order.orderId ≠ orderId) :
    (∀ order, next.Live order → order.orderId ≠ orderId) ∧
      ∃ made,
        next.market.heap.trades = venue.market.heap.trades ++ made ∧
          ∀ trade ∈ made, ¬ trade.Names orderId := by
  rcases advances.2.trades with ⟨made, recorded, between⟩
  constructor
  · intro order live
    exact others order (advances.2.live order live)
  · refine ⟨made, recorded, ?_⟩
    intro trade member names
    rcases between trade member with
      ⟨buy, sell, buyParty, sellParty, isBetween⟩
    rcases (isBetween.names_iff orderId).mp names with isBuy | isSell
    · exact others buy buyParty isBuy
    · exact others sell sellParty isSell

/-- A call neither revives an order which is gone nor trades it. -/
theorem Gone.step (gone : Gone orderId venue)
    (advances : Advances venue next) :
    Gone orderId next ∧
      ∃ made,
        next.market.heap.trades = venue.market.heap.trades ++ made ∧
          ∀ trade ∈ made, ¬ trade.Names orderId := by
  rcases gone.taken with ⟨old, oldTaken, oldId⟩
  rcases advances.unnamed fun order party => gone.notParty advances party with
    ⟨dead, untraded⟩
  exact ⟨⟨⟨old, advances.2.orders oldTaken, oldId⟩, dead⟩, untraded⟩

/-- No trade after `before` names the order. -/
def NoLaterTrade (orderId : String) (before after : ExchangeVenue) :
    Prop :=
  ∃ made,
    after.market.heap.trades = before.market.heap.trades ++ made ∧
      ∀ trade ∈ made, ¬ trade.Names orderId

theorem NoLaterTrade.refl : NoLaterTrade orderId venue venue :=
  ⟨[], by simp, by simp⟩

theorem NoLaterTrade.trans {middle : ExchangeVenue}
    (first : NoLaterTrade orderId venue middle)
    (second : NoLaterTrade orderId middle next) :
    NoLaterTrade orderId venue next := by
  rcases first with ⟨made, recorded, unnamed⟩
  rcases second with ⟨more, moreRecorded, moreUnnamed⟩
  refine ⟨made ++ more, ?_, ?_⟩
  · rw [moreRecorded, recorded, List.append_assoc]
  · intro trade member
    rcases List.mem_append.mp member with early | late
    · exact unnamed trade early
    · exact moreUnnamed trade late

/-- An order which is gone stays gone and is never traded again. -/
theorem Gone.run {calls : List VenueCall} (shape : VenueShape venue)
    (gone : Gone orderId venue)
    (run : Run VenueStep venue calls next) :
    Gone orderId next ∧ NoLaterTrade orderId venue next := by
  have all := run.invariant
    (fun state =>
      VenueShape state ∧ Gone orderId state ∧
        NoLaterTrade orderId venue state)
    ⟨shape, gone, .refl⟩
    (by
      rintro state call after ⟨stateShape, stateGone, untraded⟩ step
      have advances := venueStep_advances stateShape step
      rcases stateGone.step advances with ⟨afterGone, more⟩
      exact ⟨advances.1, afterGone, untraded.trans more⟩)
  exact all.2

end Gone

end InternTradingGame
