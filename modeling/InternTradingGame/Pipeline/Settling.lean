import InternTradingGame.Exchange.Atomicity
import InternTradingGame.Exchange.Exposure
import InternTradingGame.Pipeline.Flow
import InternTradingGame.Positions.ZeroSum

/-!
# From trades to positions

The fills of a submission travel with its result: the matching thread, the
publisher and the tracker pass it on, and every fill becomes two updates of
positions, one for each team.  No result is lost, and none is passed on
twice, so the positions and the updates still to come make up what has been
bought and sold.

The trades of the opening auction have no result which travels.  As in all
runs of the pipeline, each call of the exchange is one step.
-/

namespace InternTradingGame

open Effects

/-! ## What updates add to a position -/

/-- What an update adds to one position. -/
def PositionUpdate.deltaOn (update : PositionUpdate)
    (teamId instrumentId : String) : ℚ :=
  if teamId = update.teamId ∧ instrumentId = update.instrumentId then
    update.delta
  else
    0

/-- What some updates add to one position. -/
def outstanding (teamId instrumentId : String)
    (updates : List PositionUpdate) : ℚ :=
  (updates.map fun update => update.deltaOn teamId instrumentId).sum

theorem outstanding_append (teamId instrumentId : String)
    (first second : List PositionUpdate) :
    outstanding teamId instrumentId (first ++ second) =
      outstanding teamId instrumentId first +
        outstanding teamId instrumentId second := by
  rw [outstanding, List.map_append, List.sum_append]
  rfl

section Updates

variable {order : Order} {team : TeamInfo} {fill : Trade}

theorem fillUpdates_eq (order : Order) (team : TeamInfo) (fill : Trade) :
    fillUpdates order team fill =
      { teamId := team.teamId
        instrumentId := order.instrumentId
        delta := order.side.signed fill.quantity } ::
        if counterpartyId order fill = team.teamId then
          []
        else
          [{ teamId := counterpartyId order fill
             instrumentId := order.instrumentId
             delta := -order.side.signed fill.quantity }] := by
  rw [fillUpdates, counterpartyId]
  cases order.side <;> rfl

theorem AggressorFill.teamOn (isFill : AggressorFill order fill) :
    fill.teamOn order.side = order.traderId := by
  cases side : order.side with
  | buy => exact (isFill.buying side).2.1
  | sell => exact (isFill.selling side).2.1

theorem teamOn_opposite (order : Order) (fill : Trade) :
    fill.teamOn order.side.opposite = counterpartyId order fill := by
  rw [counterpartyId]
  cases order.side <;> rfl

theorem OrderSide.signed_eq_mul (side : OrderSide) (quantity : ℚ) :
    side.signed quantity = side.signed 1 * quantity := by
  cases side with
  | buy => exact (one_mul quantity).symm
  | sell => exact (neg_one_mul quantity).symm

/-- An update of the team on one side of a fill. -/
theorem deltaOn_eq (isFill : AggressorFill order fill)
    {side : OrderSide} {other : String} (sign : ℚ)
    (sameTeam : fill.teamOn side = other) (teamId instrumentId : String) :
    PositionUpdate.deltaOn
        ⟨other, order.instrumentId, sign * fill.quantity⟩ teamId
        instrumentId =
      sign * fill.quantityOn side teamId instrumentId := by
  rw [PositionUpdate.deltaOn, Trade.quantityOn, sameTeam,
    isFill.instrument, mul_ite, mul_zero]
  apply if_congr _ rfl rfl
  exact ⟨fun both => ⟨both.2.symm, both.1.symm⟩,
    fun both => ⟨both.2.symm, both.1.symm⟩⟩

/-- The updates of a fill between two teams. -/
theorem outstanding_fillUpdates (own : team.teamId = order.traderId)
    (isFill : AggressorFill order fill) (others : ¬ fill.IsSelfTrade)
    (teamId instrumentId : String) :
    outstanding teamId instrumentId (fillUpdates order team fill) =
      fill.quantityOn .buy teamId instrumentId -
        fill.quantityOn .sell teamId instrumentId := by
  have different := mt isFill.counterparty_eq_iff.mp others
  rw [fillUpdates_eq, own, if_neg different, outstanding, List.map_cons,
    List.map_cons, List.map_nil, List.sum_cons, List.sum_cons,
    List.sum_nil, add_zero, OrderSide.signed_eq_mul, ← neg_mul,
    deltaOn_eq isFill _ isFill.teamOn,
    deltaOn_eq isFill _ (teamOn_opposite order fill)]
  cases order.side with
  | buy =>
      simp only [OrderSide.signed, OrderSide.opposite]
      ring
  | sell =>
      simp only [OrderSide.signed, OrderSide.opposite]
      ring

/-- The updates of fills between two teams. -/
theorem outstanding_fills (own : team.teamId = order.traderId)
    {fills : List Trade}
    (areFills : ∀ fill ∈ fills, AggressorFill order fill)
    (others : ∀ fill ∈ fills, ¬ fill.IsSelfTrade)
    (teamId instrumentId : String) :
    outstanding teamId instrumentId
        (fills.flatMap (fillUpdates order team)) =
      tradedOn .buy teamId instrumentId fills -
        tradedOn .sell teamId instrumentId fills := by
  induction fills with
  | nil => simp [outstanding, tradedOn]
  | cons fill rest induction =>
      have tail := induction
        (fun other member => areFills other (List.mem_cons_of_mem _ member))
        (fun other member => others other (List.mem_cons_of_mem _ member))
      rw [List.flatMap_cons, outstanding_append, tail,
        outstanding_fillUpdates own (areFills fill List.mem_cons_self)
          (others fill List.mem_cons_self)]
      simp only [tradedOn, List.map_cons, List.sum_cons]
      ring

end Updates

/-! ## The updates still to come -/

namespace Pipeline

variable (state : Pipeline)

/-- The results on their way to the tracker, the first to arrive first. -/
def results : List TradeData :=
  state.positionQueue ++ state.publisher.toList ++ state.tradeQueue ++
    state.matcher.results

/-- The updates which have still to be made. -/
def pendingUpdates : List PositionUpdate :=
  state.tracker ++ state.results.flatMap TradeData.updates

/-- The queues behind the exchange are empty and no thread holds a result. -/
structure Drained : Prop where
  tracker : state.tracker = []
  positionQueue : state.positionQueue = []
  publisher : state.publisher = none
  tradeQueue : state.tradeQueue = []
  matcher : state.matcher.results = []

theorem Drained.pendingUpdates {state : Pipeline}
    (drained : state.Drained) : state.pendingUpdates = [] := by
  rw [Pipeline.pendingUpdates, results, drained.tracker,
    drained.positionQueue, drained.publisher, drained.tradeQueue,
    drained.matcher]
  rfl

end Pipeline

/-! ## The trades of the exchange -/

section Venue

variable {venue : ExchangeVenue}

theorem MarketSound.fair {market : Market} (sound : MarketSound market) :
    MarketFair market where
  shape := sound.shape
  solvent order taken := (sound.fillable order taken).nonnegative
  unspent := by
    rintro order ⟨instrumentId, book, found, member⟩
    exact (sound.books instrumentId book found).positive order member

/-- A sound venue is fair. -/
theorem VenueSound.fair (sound : VenueSound venue) : VenueFair venue where
  shape := sound.shape
  market := sound.market.fair
  waits := sound.pendingWait
  known := sound.known

/-- The batch engine makes the trades of its plan. -/
theorem runBatchEngine_made (sound : VenueSound venue)
    (draw : String → ℚ) :
    Ends (ExchangeVenue.runBatchEngine draw) venue
      (fun _ next => Market.Made
        (batchPlan draw venue.market venue.pendingOrders) venue.market
        next.market)
      (fun _ _ => True) := by
  have carries := runBatch_carriesOut_venue sound.fair draw
  have applied := runBatchEngine_apply venue draw
  cases evaluated : BatchMatchingEngine.runBatch draw
      venue.pendingOrders { market := venue.market, results := ∅ } with
  | ok results context =>
      rw [evaluated] at applied
      exact Ends.of_ok applied (Ends.elim_ok carries evaluated).2.2.2
  | error exception context =>
      rw [evaluated] at applied
      exact Ends.of_error applied trivial

/-- Only the opening auction changes what the orders have left. -/
theorem handleTransition_heap (shape : VenueShape venue)
    (draw : String → ℚ) {previous current : PhaseType}
    (quiet : ¬ (previous = .preOpen ∧ current = .openingAuction)) :
    Ends (ExchangeVenue.handleTransition draw previous current) venue
      (fun _ next => next.market.heap = venue.market.heap)
      (fun _ _ => True) := by
  have close : Ends ExchangeVenue.cancelAllOrders venue
      (fun _ next => next.market.heap = venue.market.heap)
      (fun _ _ => True) :=
    (cancelAllOrders_ends shape).mono (fun _ _ closed => closed.1.heap)
      (fun _ _ _ => trivial)
  have nothing : venue.market.heap = venue.market.heap := rfl
  cases previous <;> cases current <;>
    first
      | exact nothing
      | exact close
      | exact absurd ⟨rfl, rfl⟩ quiet

/-- A check makes no trades unless it opens the market. -/
inductive CheckTrades (venue : ExchangeVenue) (observed : PhaseState)
    (draw : String → ℚ) (next : ExchangeVenue) : Prop where
  | none (heap : next.market.heap = venue.market.heap)
  | opening (last : venue.lastPhase = some .preOpen)
      (now : observed.phaseType = .openingAuction)
      (made : Market.Made
        (batchPlan draw venue.market venue.pendingOrders) venue.market
        next.market)

theorem checkPhaseTransitions_trades (sound : VenueSound venue)
    (observed : PhaseState) (draw : String → ℚ) :
    Ends (ExchangeVenue.checkPhaseTransitions observed draw) venue
      (fun _ next => CheckTrades venue observed draw next)
      (fun _ _ => True) := by
  have evaluated := checkPhaseTransitions_apply venue observed draw
  have observing := sound.observing observed
  cases last : venue.lastPhase with
  | none =>
      rw [last] at evaluated
      exact Ends.of_ok evaluated (.none rfl)
  | some previous =>
      rw [last] at evaluated
      by_cases same : previous = observed.phaseType
      · simp only [if_pos same] at evaluated
        exact Ends.of_ok evaluated (.none rfl)
      · simp only [if_neg same] at evaluated
        apply Ends.of_eq evaluated
        by_cases opens : previous = .preOpen ∧
            observed.phaseType = .openingAuction
        · rcases opens with ⟨rfl, now⟩
          rw [now]
          show Ends (ExchangeVenue.executeOpeningAuction draw) _ _ _
          apply (runBatchEngine_made observing draw).bind
          exact fun _ next made => CheckTrades.opening last now made
        · exact (handleTransition_heap observing.shape draw opens).mono
            (fun _ _ heap => .none heap) (fun _ _ _ => trivial)

end Venue

/-! ## What a step does -/

/--
What a step does to the trades, to the positions and to the updates still to
come.
-/
inductive TradeMove (state next : Pipeline) (call : PipelineCall) :
    Prop where
  | quiet
      (trades :
        next.venue.market.heap.trades = state.venue.market.heap.trades)
      (positions : next.positions = state.positions)
      (pending : next.pendingUpdates = state.pendingUpdates)
  | updated (update : PositionUpdate)
      (trades :
        next.venue.market.heap.trades = state.venue.market.heap.trades)
      (positions : next.positions = update.apply state.positions)
      (pending : state.pendingUpdates = update :: next.pendingUpdates)
  | filled (data : TradeData) (own : data.Own)
      (trades :
        next.venue.market.heap.trades =
          state.venue.market.heap.trades ++ data.result.fills)
      (positions : next.positions = state.positions)
      (pending :
        next.pendingUpdates = state.pendingUpdates ++ data.updates)
  | opened (observed : PhaseState) (draw : String → ℚ)
      (now : call = .checkPhases observed draw)
      (matcher : state.matcher = .idle)
      (last : state.venue.lastPhase = some .preOpen)
      (opening : observed.phaseType = .openingAuction)
      (made : Market.Made
        (batchPlan draw state.venue.market state.venue.pendingOrders)
        state.venue.market next.venue.market)
      (positions : next.positions = state.positions)
      (pending : next.pendingUpdates = state.pendingUpdates)

theorem SubmitReturns.recorded {venue next : ExchangeVenue}
    {order : Order} {result : OrderResult}
    (returns : SubmitReturns venue order result next) :
    next.market.heap.trades =
      venue.market.heap.trades ++ result.fills := by
  cases returns with
  | refused _ => exact (List.append_nil _).symm
  | collected _ _ => exact (List.append_nil _).symm
  | matched _ _ _ _ _ _ trading => exact trading.recorded

section Step

variable {state next : Pipeline} {call : PipelineCall}

theorem listInstrument_heap (instrument : Instrument)
    (venue : ExchangeVenue) :
    (finalState (ExchangeVenue.listInstrument instrument
      venue)).market.heap = venue.market.heap := by
  rw [listInstrument_apply]
  split_ifs
  · rfl
  · rfl

theorem cancelOrder_heap {venue : ExchangeVenue}
    (shape : VenueShape venue) (orderId traderId : String) :
    (finalState (ExchangeVenue.cancelOrder orderId traderId
      venue)).market.heap = venue.market.heap := by
  rcases cancelOrder_cases_venue shape orderId traderId with
    ⟨_, next, _, evaluates, cancelled⟩ |
      ⟨_, evaluates | ⟨_, evaluates⟩⟩
  · rw [evaluates]
    exact cancelled.market.heap
  · rw [evaluates]
    rfl
  · rw [evaluates]
    rfl

/-- Every step is of one of these kinds. -/
theorem PipelineSound.tradeMove (sound : PipelineSound state)
    (move : PipelineMove state call next) :
    TradeMove state next call := by
  cases move with
  | lists instrument =>
      exact .quiet
        (congrArg Heap.trades (listInstrument_heap instrument state.venue))
        rfl rfl
  | cancels answer validator _ =>
      refine .quiet ?_ rfl rfl
      exact (congrArg
          (fun venue : ExchangeVenue => venue.market.heap.trades)
          (validateCancellation_finalState _ _ _)).trans
        (congrArg Heap.trades (cancelOrder_heap sound.venue.shape _ _))
  | @submits order team result venue matcher evaluates =>
      rcases sound.submitting matcher with ⟨allowed, whole, own⟩
      have returns :=
        ((submitOrder_sound sound.venue allowed whole).elim_ok evaluates).1
      refine .filled { result, order, team }
        ⟨own, returns.aggressorFill sound.venue.shape⟩
        returns.recorded rfl ?_
      simp [Pipeline.pendingUpdates, Pipeline.results, matcher,
        MatcherState.results]
  | submitFails matcher evaluates =>
      rcases sound.submitting matcher with ⟨allowed, whole, _⟩
      obtain rfl :=
        (submitOrder_sound sound.venue allowed whole).elim_error evaluates
      refine .quiet rfl rfl ?_
      simp [Pipeline.pendingUpdates, Pipeline.results, matcher,
        MatcherState.results]
  | publishes matcher =>
      refine .quiet rfl rfl ?_
      simp [Pipeline.pendingUpdates, Pipeline.results, matcher,
        MatcherState.results]
  | checks matcher evaluates =>
      cases (checkPhaseTransitions_trades sound.venue _ _).elim_ok
          evaluates with
      | none heap => exact .quiet (congrArg Heap.trades heap) rfl rfl
      | opening last now made =>
          exact .opened _ _ rfl matcher last now made rfl rfl
  | checkFails matcher evaluates =>
      exact ((checkPhaseTransitions_sound sound.venue _ _).elim_error
        evaluates).elim
  | publisherTakes publisher queued =>
      refine .quiet rfl rfl ?_
      simp [Pipeline.pendingUpdates, Pipeline.results, publisher, queued]
  | publisherForwards publisher =>
      refine .quiet rfl rfl ?_
      simp [Pipeline.pendingUpdates, Pipeline.results, publisher]
  | trackerTakes tracker queued =>
      refine .quiet rfl rfl ?_
      simp [Pipeline.pendingUpdates, Pipeline.results, tracker, queued]
  | @tracks update rest tracker =>
      refine .updated update rfl rfl ?_
      simp [Pipeline.pendingUpdates, Pipeline.results, tracker]
  | matcherTakes matcher queued =>
      refine .quiet rfl rfl ?_
      simp [Pipeline.pendingUpdates, Pipeline.results, matcher,
        MatcherState.results]
  | _ => exact .quiet rfl rfl rfl

end Step

/-! ## Settlement -/

/-- The opening auction which a check runs has no trades to make. -/
def VenueCall.OpensQuietly : VenueCall → ExchangeVenue → Prop
  | .checkPhaseTransitions observed draw, venue =>
      venue.lastPhase = some .preOpen →
        observed.phaseType = .openingAuction →
          (batchPlan draw venue.market venue.pendingOrders).flatMap
            DeskEffect.amounts = []
  | _, _ => True

instance (call : VenueCall) (venue : ExchangeVenue) :
    Decidable (call.OpensQuietly venue) := by
  rcases call
  case checkPhaseTransitions observed draw =>
      exact inferInstanceAs (Decidable (_ → _ → _))
  all_goals exact inferInstanceAs (Decidable True)

/-- The opening auction which a step runs has no trades to make. -/
def PipelineCall.OpensQuietly (call : PipelineCall) (state : Pipeline) :
    Prop :=
  ∀ venueCall ∈ call.venueCalls state, venueCall.OpensQuietly state.venue

instance (call : PipelineCall) (state : Pipeline) :
    Decidable (call.OpensQuietly state) :=
  inferInstanceAs (Decidable (∀ venueCall ∈ _, _))

/-- What the teams have traded, and nothing else, is or will be booked. -/
def Booked (state : Pipeline) : Prop :=
  ∀ teamId instrumentId,
    state.positions.getPositionForInstrument teamId instrumentId +
        outstanding teamId instrumentId state.pendingUpdates =
      tradedOn .buy teamId instrumentId state.venue.market.heap.trades -
        tradedOn .sell teamId instrumentId state.venue.market.heap.trades

section Settlement

variable {state next : Pipeline} {call : PipelineCall}

/-- No team has traded with itself. -/
def NoSelfTrades (state : Pipeline) : Prop :=
  ∀ trade ∈ state.venue.market.heap.trades, ¬ trade.IsSelfTrade

theorem Booked.congr (booked : Booked state)
    (trades :
      next.venue.market.heap.trades = state.venue.market.heap.trades)
    (positions : next.positions = state.positions)
    (pending : next.pendingUpdates = state.pendingUpdates) :
    Booked next := by
  rw [Booked, trades, positions, pending]
  exact booked

theorem Booked.step (booked : Booked state) (sound : PipelineSound state)
    (move : PipelineMove state call next)
    (quietly : call.OpensQuietly state) (others : NoSelfTrades next) :
    Booked next := by
  cases sound.tradeMove move with
  | quiet trades positions pending =>
      exact booked.congr trades positions pending
  | updated update trades positions pending =>
      intro teamId instrumentId
      have before := booked teamId instrumentId
      rw [pending, outstanding, List.map_cons, List.sum_cons] at before
      rw [trades, positions, PositionUpdate.apply,
        PositionManagementService.getPositionForInstrument_updatePosition,
        ← before, outstanding, add_assoc]
      rfl
  | filled data own trades positions pending =>
      intro teamId instrumentId
      have before := booked teamId instrumentId
      have between : ∀ fill ∈ data.result.fills, ¬ fill.IsSelfTrade := by
        intro fill member
        apply others
        rw [trades]
        exact List.mem_append_right _ member
      have added := outstanding_fills own.team own.fills between teamId
        instrumentId
      rw [trades, positions, pending, outstanding_append,
        tradedOn_append, tradedOn_append]
      show _ + (_ + outstanding _ _ (data.result.fills.flatMap _)) = _
      rw [added]
      linarith
  | opened observed draw now matcher last opening made positions
      pending =>
      subst now
      have checks : VenueCall.checkPhaseTransitions observed draw ∈
          PipelineCall.venueCalls (.checkPhases observed draw) state := by
        rw [PipelineCall.venueCalls, matcher]
        exact List.mem_singleton_self _
      exact booked.congr (made.trades_eq (quietly _ checks last opening))
        positions pending

/-- Trades stay on record. -/
theorem PipelineSound.trades_prefix (sound : PipelineSound state)
    (move : PipelineMove state call next) :
    state.venue.market.heap.trades <+: next.venue.market.heap.trades := by
  cases sound.tradeMove move with
  | quiet trades _ _ => exact trades ▸ List.prefix_refl _
  | updated _ trades _ _ => exact trades ▸ List.prefix_refl _
  | filled _ _ trades _ _ => exact ⟨_, trades.symm⟩
  | opened _ _ _ _ _ _ made _ _ =>
      rcases made with ⟨trades, recorded, _⟩
      exact ⟨trades, recorded.symm⟩

end Settlement

/--
In every run without self-trades whose opening auctions have no trades to
make, the positions are what the teams have bought less what they have sold
once the queues behind the exchange are drained.  The steps of the threads
interleave, with each call of the exchange as one step.
-/
theorem settled_of_opensQuietly {cached baseline : PhaseState}
    {validator : ConstraintBasedOrderValidator}
    {calls : List PipelineCall} {state : Pipeline}
    (run : Run PipelineStep (Pipeline.start cached baseline validator)
      calls state)
    (quietly : Permitted PipelineCall.OpensQuietly PipelineCall.execute
      (Pipeline.start cached baseline validator) calls)
    (others : ∀ trade ∈ state.venue.market.heap.trades,
      ¬ trade.IsSelfTrade)
    (drained : state.Drained) :
    ∀ teamId instrumentId,
      state.positions.getPositionForInstrument teamId instrumentId =
        tradedOn .buy teamId instrumentId state.venue.market.heap.trades -
          tradedOn .sell teamId instrumentId
            state.venue.market.heap.trades := by
  have booked : Booked state := by
    clear drained
    have initial := PipelineSound.start cached baseline validator
    induction run with
    | refl =>
        intro teamId instrumentId
        simp [Pipeline.start, Pipeline.pendingUpdates, Pipeline.results,
          MatcherState.results, outstanding, tradedOn, ExchangeVenue.new,
          Heap.empty,
          PositionManagementService.getPositionForInstrument_new]
    | @snoc middle finish calls call init last induction =>
        rw [permitted_snoc, ← init.eq_replay] at quietly
        have sound := initial.of_run init
        rcases last with ⟨_, rfl⟩
        have move := call.execute_moves middle
        have earlier : NoSelfTrades middle := fun trade member =>
          others trade ((sound.trades_prefix move).subset member)
        exact (induction quietly.1 earlier).step sound move quietly.2 others
  intro teamId instrumentId
  have all := booked teamId instrumentId
  rw [drained.pendingUpdates, outstanding, List.map_nil, List.sum_nil,
    add_zero] at all
  exact all

/-! ## A sale in the continuous market and one in the auction -/

namespace Sample

/-- An order is accepted, submitted, and its result is booked. -/
def passing (order : Order) (team : TeamInfo) : List PipelineCall :=
  [ .post (.newOrder order team order.orderId),
    .validatorTake, .validate 0, .forward, .count 0, .reply,
    .matcherTake, .submit, .publish, .publisherTake, .publisherForward,
    .trackerTake, .track, .track ]

/-- Two orders which cross pass through the pipeline in a phase. -/
def saleIn (phase : PhaseType) : List PipelineCall :=
  [ .checkPhases (PhaseState.default phase) fun _ => 0,
    .listInstrument { symbol := "CALL" } ] ++
    passing sellTen sellingTeam ++ passing buyFour buyingTeam

end Sample

theorem settled_of_opensQuietly_sale :
    (replay PipelineCall.execute
        (Pipeline.start (PhaseState.default .closed)
          (PhaseState.default .closed) Sample.onePerSecondValidator)
        (Sample.saleIn .continuous)).positions.getPositionForInstrument
          "TAKER" "CALL" =
      tradedOn .buy "TAKER" "CALL"
          (replay PipelineCall.execute
            (Pipeline.start (PhaseState.default .closed)
              (PhaseState.default .closed) Sample.onePerSecondValidator)
            (Sample.saleIn .continuous)).venue.market.heap.trades -
        tradedOn .sell "TAKER" "CALL"
          (replay PipelineCall.execute
            (Pipeline.start (PhaseState.default .closed)
              (PhaseState.default .closed) Sample.onePerSecondValidator)
            (Sample.saleIn .continuous)).venue.market.heap.trades :=
  settled_of_opensQuietly (run_replay (by decide +kernel))
    (by decide +kernel) (by decide +kernel)
    ⟨by decide +kernel, by decide +kernel, by decide +kernel,
      by decide +kernel, by decide +kernel⟩ "TAKER" "CALL"

/-- The trade of an opening auction is never booked. -/
theorem auction_unsettled :
    ¬ ∀ (cached baseline : PhaseState)
        (validator : ConstraintBasedOrderValidator)
        (calls : List PipelineCall) (state : Pipeline),
      Run PipelineStep (Pipeline.start cached baseline validator) calls
          state →
        (∀ trade ∈ state.venue.market.heap.trades,
          ¬ trade.IsSelfTrade) →
        state.matchQueue = [] → state.Drained →
          ∀ teamId instrumentId,
            state.positions.getPositionForInstrument teamId instrumentId =
              tradedOn .buy teamId instrumentId
                  state.venue.market.heap.trades -
                tradedOn .sell teamId instrumentId
                  state.venue.market.heap.trades := by
  intro settled
  have booked := settled (PhaseState.default .closed)
    (PhaseState.default .closed) Sample.onePerSecondValidator
    (Sample.saleIn .preOpen ++
      [.checkPhases (PhaseState.default .openingAuction) fun _ => 0])
    _ (run_replay (by decide +kernel)) (by decide +kernel)
    (by decide +kernel)
    ⟨by decide +kernel, by decide +kernel, by decide +kernel,
      by decide +kernel, by decide +kernel⟩ "TAKER" "CALL"
  revert booked
  decide +kernel

end InternTradingGame
