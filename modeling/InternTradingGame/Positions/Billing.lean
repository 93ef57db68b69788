import Mathlib.Algebra.BigOperators.Ring.List
import Mathlib.Algebra.Order.BigOperators.Group.List
import InternTradingGame.Exchange.ContinuousResults
import InternTradingGame.Messaging.Reports
import InternTradingGame.Positions.TwoPaths

/-!
# What a team is billed for

The trade processing service answers a result with the quantity which has
been filled, the average price and the fees.  The publisher thread computes
the fees a second time, for the reports it sends.

For the results of the continuous engine both agree: the order is the
aggressor of all its fills, so each of them is charged the taker fee, the
filled quantity is what has left the order, and the average price keeps to
its limit.
-/

namespace InternTradingGame

open Effects TradeProcessingService

/-! ## The average price -/

section Average

variable {trades : List Trade} {bound : ℚ}

/-- What the trades cost is their quantity at the average price. -/
theorem calculateAveragePrice_mul (some? : trades ≠ []) :
    calculateAveragePrice trades * (trades.map Trade.quantity).sum =
      (trades.map fun trade => trade.price * trade.quantity).sum :=
  div_mul_cancel₀ _ (sum_quantity_pos some?).ne'

/-- The trades cost at most their quantity at an upper bound. -/
theorem calculateAveragePrice_le (some? : trades ≠ [])
    (below : ∀ trade ∈ trades, trade.price ≤ bound) :
    calculateAveragePrice trades ≤ bound := by
  rw [calculateAveragePrice, div_le_iff₀ (sum_quantity_pos some?),
    ← List.sum_map_mul_left]
  apply List.sum_le_sum
  intro trade member
  exact mul_le_mul_of_nonneg_right (below trade member)
    trade.quantity_positive.le

theorem le_calculateAveragePrice (some? : trades ≠ [])
    (above : ∀ trade ∈ trades, bound ≤ trade.price) :
    bound ≤ calculateAveragePrice trades := by
  rw [calculateAveragePrice, le_div_iff₀ (sum_quantity_pos some?),
    ← List.sum_map_mul_left]
  apply List.sum_le_sum
  intro trade member
  exact mul_le_mul_of_nonneg_right (above trade member)
    trade.quantity_positive.le

/-- An order which accepts all prices accepts their average. -/
theorem calculateAveragePrice_accepted {order : Order}
    (some? : trades ≠ [])
    (accepted : ∀ trade ∈ trades, ¬ order.Refuses trade.price) :
    ¬ order.Refuses (calculateAveragePrice trades) := by
  intro refuses
  rcases (order.refuses_iff _).mp refuses with ⟨limit, priced, better⟩
  have within : ∀ trade ∈ trades,
      ¬ order.side.Better trade.price limit := fun trade member beyond =>
    accepted trade member
      ((order.refuses_iff _).mpr ⟨limit, priced, beyond⟩)
  cases side : order.side with
  | buy =>
      rw [side] at within better
      exact absurd better (not_lt.mpr (calculateAveragePrice_le some?
        fun trade member => not_lt.mp (within trade member)))
  | sell =>
      rw [side] at within better
      exact absurd better (not_lt.mpr (le_calculateAveragePrice some?
        fun trade member => not_lt.mp (within trade member)))

end Average

/-! ## Fees -/

section Fees

variable {feeService : TradingFeeService} {schedule : FeeSchedule}
  {order : Order} {team : TeamInfo}

/-- The report of a fill which is charged the taker fee. -/
def takerReport (schedule : FeeSchedule) (order : Order) (team : TeamInfo)
    (fill : Trade) : String × ExecutionReport :=
  (team.teamId,
    createExecutionReportData fill order .taker
      (fill.quantity * schedule.takerFee))

/-- The aggressor of a fill is charged the taker fee. -/
theorem calculateFee_aggressor
    (charges : feeService.roleFees.get? team.role = some schedule)
    {fill : Trade} (isFill : AggressorFill order fill) :
    TradingFeeService.determineLiquidityType fill.aggressorSide
        order.side = .taker ∧
      feeService.calculateFee (truncate fill.quantity) team.role .taker =
        .ok (fill.quantity * schedule.takerFee) := by
  constructor
  · exact if_pos isFill.aggressor
  · simp only [TradingFeeService.calculateFee, charges,
      FeeSchedule.getFeeForLiquidityType]
    rw [truncate_whole fill.quantity_whole]

theorem processSingleFill_taker
    (charges : feeService.roleFees.get? team.role = some schedule)
    {fill : Trade} (isFill : AggressorFill order fill)
    (processing : TradeProcessing) :
    processSingleFill feeService fill order team processing =
      .ok (fill.quantity * schedule.takerFee, .taker)
        { processing with
          websocketQueue :=
            processing.websocketQueue ++
              [takerReport schedule order team fill] } := by
  rcases calculateFee_aggressor charges isFill with ⟨taker, fee⟩
  rw [processSingleFill]
  simp only [taker, fee]
  rfl

/-- A fill adds its fee and its report. -/
theorem processFills_cons
    (charges : feeService.roleFees.get? team.role = some schedule)
    {fill : Trade} (isFill : AggressorFill order fill)
    (rest : List Trade) (fees : ℚ) {liquidityTypes : List LiquidityType}
    (takers : liquidityTypes = [] ∨ liquidityTypes = [.taker])
    (processing : TradeProcessing) :
    processFills feeService order team (fill :: rest) fees liquidityTypes
        processing =
      processFills feeService order team rest
        (fees + fill.quantity * schedule.takerFee) [.taker]
        { processing with
          websocketQueue :=
            processing.websocketQueue ++
              [takerReport schedule order team fill] } := by
  rw [processFills]
  show EStateM.bind _ _ _ = _
  rw [EStateM.bind, processSingleFill_taker charges isFill]
  rcases takers with rfl | rfl
  · rfl
  · rfl

/-- The fees of all fills add up to the taker fee of their quantity. -/
theorem processFills_takers
    (charges : feeService.roleFees.get? team.role = some schedule)
    {fills : List Trade}
    (areFills : ∀ fill ∈ fills, AggressorFill order fill)
    (fees : ℚ) (processing : TradeProcessing) :
    processFills feeService order team fills fees [.taker] processing =
      .ok
        (fees + (fills.map Trade.quantity).sum * schedule.takerFee,
          [.taker])
        { processing with
          websocketQueue :=
            processing.websocketQueue ++
              fills.map (takerReport schedule order team) } := by
  induction fills generalizing fees processing with
  | nil =>
      rw [List.map_nil, List.map_nil, List.sum_nil, zero_mul, add_zero,
        List.append_nil]
      rfl
  | cons fill rest induction =>
      rcases List.forall_mem_cons.mp areFills with ⟨isFill, areRest⟩
      rw [processFills_cons charges isFill rest fees (Or.inr rfl),
        induction areRest, List.map_cons, List.map_cons, List.sum_cons,
        List.append_assoc, add_mul, add_assoc]
      rfl

/-- Processing at least one fill sees takers only. -/
theorem processFills_taker
    (charges : feeService.roleFees.get? team.role = some schedule)
    {fills : List Trade} (some? : fills ≠ [])
    (areFills : ∀ fill ∈ fills, AggressorFill order fill)
    (processing : TradeProcessing) :
    processFills feeService order team fills 0 [] processing =
      .ok ((fills.map Trade.quantity).sum * schedule.takerFee, [.taker])
        { processing with
          websocketQueue :=
            processing.websocketQueue ++
              fills.map (takerReport schedule order team) } := by
  cases fills with
  | nil => exact absurd rfl some?
  | cons fill rest =>
      rcases List.forall_mem_cons.mp areFills with ⟨isFill, areRest⟩
      rw [processFills_cons charges isFill rest 0 (Or.inl rfl),
        processFills_takers charges areRest, zero_add, List.map_cons,
        List.map_cons, List.sum_cons, List.append_assoc, add_mul]
      rfl

/-- The publisher charges the same fees. -/
theorem publishFills_taker (stamp : Trade → TradeStamp)
    (charges : feeService.roleFees.get? team.role = some schedule)
    {fills : List Trade}
    (areFills : ∀ fill ∈ fills, AggressorFill order fill) :
    publishFills feeService stamp order team fills =
      fills.map fun fill =>
        publisherReport stamp order team fill .taker
          (fill.quantity * schedule.takerFee) := by
  induction fills with
  | nil => rfl
  | cons fill rest induction =>
      rcases List.forall_mem_cons.mp areFills with ⟨isFill, areRest⟩
      rcases calculateFee_aggressor charges isFill with ⟨taker, fee⟩
      have published : publishFill feeService stamp order team fill =
          .ok (publisherReport stamp order team fill .taker
            (fill.quantity * schedule.takerFee)) := by
        rw [publishFill]
        simp only [taker, fee]
      rw [publishFills, published, induction areRest]
      rfl

end Fees

/-! ## The response -/

/-- The response and the reports bill the order for what was traded. -/
structure Bills (schedule : FeeSchedule) (data : TradeData)
    (response : OrderResponse)
    (reports : List (String × ExecutionReport)) : Prop where
  order : response.orderId = data.order.orderId ∧
    response.status = data.result.status
  filled :
    (response.filledQuantity : ℚ) + data.result.remainingQuantity =
      data.order.quantity
  fees : response.fees = response.filledQuantity * schedule.takerFee
  reported :
    reports =
      data.result.fills.map (takerReport schedule data.order data.team)
  unpriced : response.averagePrice = none ↔ data.result.fills = []
  cost : ∀ price ∈ response.averagePrice,
    price * response.filledQuantity =
      (data.result.fills.map fun fill =>
        fill.price * fill.quantity).sum
  accepted : ∀ price ∈ response.averagePrice, ¬ data.order.Refuses price
  liquidity : response.liquidityType =
    if data.result.fills = [] then none else some .taker

section Response

variable {feeService : TradingFeeService} {schedule : FeeSchedule}
  {data : TradeData}

/-- Processing a result of the engine bills what it says. -/
theorem processTradeResult_bills
    (charges : feeService.roleFees.get? data.team.role = some schedule)
    (areFills : ∀ fill ∈ data.result.fills,
      AggressorFill data.order fill)
    (accepted : ∀ fill ∈ data.result.fills,
      ¬ data.order.Refuses fill.price)
    (filled :
      (data.result.fills.map Trade.quantity).sum +
          data.result.remainingQuantity =
        data.order.quantity)
    (processing : TradeProcessing) :
    ∃ response settled,
      processTradeResult feeService data processing =
          .ok response settled ∧
        ∃ reports,
          settled.websocketQueue = processing.websocketQueue ++ reports ∧
            Bills schedule data response reports := by
  have whole : ((truncate (data.result.fills.map Trade.quantity).sum : ℤ) :
      ℚ) = (data.result.fills.map Trade.quantity).sum :=
    truncate_whole whole_sum
  rw [processTradeResult]
  by_cases none : data.result.fills = []
  · have zero :
        ¬ 0 < truncate (data.result.fills.map Trade.quantity).sum := by
      rw [none]
      decide +kernel
    simp only [if_neg zero]
    refine ⟨_, _, rfl, [], (List.append_nil _).symm, ?_⟩
    constructor
    · exact ⟨rfl, rfl⟩
    · exact (congrArg (· + data.result.remainingQuantity) whole).trans filled
    · show (0 : ℚ) = _ * _
      rw [whole, none, List.map_nil, List.sum_nil, zero_mul]
    · rw [none]
      rfl
    · exact iff_of_true rfl none
    · intro price impossible
      cases impossible
    · intro price impossible
      cases impossible
    · rw [if_pos none]
  · have positive :
        0 < truncate (data.result.fills.map Trade.quantity).sum := by
      have sumPositive := sum_quantity_pos none
      rw [← whole] at sumPositive
      exact_mod_cast sumPositive
    simp only [if_pos positive]
    show ∃ response settled, EStateM.bind _ _ _ = _ ∧ _
    rw [EStateM.bind, processFills_taker charges none areFills]
    refine ⟨_, _, rfl, _, rfl, ?_⟩
    constructor
    · exact ⟨rfl, rfl⟩
    · exact (congrArg (· + data.result.remainingQuantity) whole).trans filled
    · show _ * _ = _ * _
      rw [whole]
    · rfl
    · exact iff_of_false (fun impossible => by cases impossible) none
    · intro price member
      cases member
      rw [whole]
      exact calculateAveragePrice_mul none
    · intro price member
      cases member
      exact calculateAveragePrice_accepted none accepted
    · rw [if_neg none]
      rfl

end Response

/-! ## Results of the venue -/

section Venue

variable {venue next : ExchangeVenue} {order : Order}
  {result : OrderResult}

/-- An order which rests has been taken in before. -/
theorem Takes.not_rests (takes : Takes venue order)
    (shape : VenueShape venue) {other : Order}
    (rests : (venue.register order).market.Rests other) :
    other.orderId ≠ order.orderId :=
  takes.fresh other (shape.market.registered other rests)

/-- A fill of a submission is at a price the order accepts. -/
theorem SubmitReturns.accepted (shape : VenueShape venue)
    (returns : SubmitReturns venue order result next) :
    ∀ fill ∈ result.fills, ¬ order.Refuses fill.price := by
  intro fill member refuses
  have isFill := returns.aggressorFill shape fill member
  rcases (order.refuses_iff _).mp refuses with ⟨limit, priced, better⟩
  cases returns with
  | refused _ => exact absurd member List.not_mem_nil
  | collected _ _ => exact absurd member List.not_mem_nil
  | matched takes _ _ _ _ _ trading =>
      rcases trading.between fill member with
        ⟨buy, sell, buyParty, sellParty, between⟩
      have own : ∀ {party : Order},
          AddParties (venue.register order).market order party →
            party.orderId = order.orderId → party = order := by
        rintro party (same | rests) named
        · exact same
        · exact absurd named (takes.not_rests shape rests)
      cases side : order.side with
      | buy =>
          have isOrder := own buyParty
            (between.buyerOrder.symm.trans (isFill.buying side).1)
          rw [side] at better
          exact absurd better
            (not_lt.mpr (between.buyLimit limit (isOrder ▸ priced)))
      | sell =>
          have isOrder := own sellParty
            (between.sellerOrder.symm.trans (isFill.selling side).1)
          rw [side] at better
          exact absurd better
            (not_lt.mpr (between.sellLimit limit (isOrder ▸ priced)))

/-- What has been filled has left the order. -/
theorem SubmitReturns.filled (shape : VenueShape venue)
    (returns : SubmitReturns venue order result next) :
    (result.fills.map Trade.quantity).sum + result.remainingQuantity =
      order.quantity := by
  cases returns with
  | refused _ => exact zero_add _
  | collected _ _ => exact zero_add _
  | matched takes _ evaluates _ _ _ _ =>
      rcases (OrderedDict.contains_iff_exists _ _).mp takes.listed with
        ⟨book, found⟩
      have registered := register_shape shape takes.fresh
      rcases (continuous_submitOrder_matched registered.market
          found).elim_ok evaluates with
        ⟨matched, _, facts, _, remaining⟩
      rw [remaining, add_comm, facts.conserves.own]
      exact Heap.remaining_allocate_self _ _

/--
Whatever the venue returns for a new order is billed as it was traded, and
the publisher reports the same fees: every fill is charged the taker fee of
the team's role, and no average is paid which the order does not accept.
Prices, averages and fees are exact here, where the code rounds binary
floats.
-/
theorem submission_billed {cached baseline : PhaseState}
    {calls : List ObjectCall}
    (run : Run ObjectStep (ExchangeVenue.new cached baseline) calls venue)
    (apart :
      KeptApart (ExchangeVenue.new cached baseline)
        (calls ++ [.operation (.submitOrder order)]))
    (submits : ExchangeVenue.submitOrder order venue = .ok result next)
    {team : TeamInfo} {feeService : TradingFeeService}
    {schedule : FeeSchedule}
    (charges : feeService.roleFees.get? team.role = some schedule)
    (stamp : Trade → TradeStamp) (processing : TradeProcessing) :
    (∃ response settled reports,
      processTradeResult feeService { result, order, team } processing =
          .ok response settled ∧
        settled.websocketQueue = processing.websocketQueue ++ reports ∧
          Bills schedule { result, order, team } response reports) ∧
      publishFills feeService stamp order team result.fills =
        result.fills.map fun fill =>
          publisherReport stamp order team fill .taker
            (fill.quantity * schedule.takerFee) := by
  rcases apart.separate run trivial with ⟨separateRun, separate⟩
  rcases (ShowsSolvent.of_run separateRun).fresh separate with
    ⟨clean, solvent, same, fresh⟩
  have shape := solvent.shape
  have both := same.submitObject order order.quantity
  rw [ExchangeVenue.submitObject_quantity] at both
  rcases both.elim_ok_right submits with ⟨cleanNext, answers, _⟩
  have returns := (submitOrder_ends shape fresh).elim_ok answers
  have areFills := returns.aggressorFill shape
  constructor
  · rcases @processTradeResult_bills _ _ { result, order, team } charges
        areFills (returns.accepted shape) (returns.filled shape)
        processing with
      ⟨response, settled, evaluates, reports, queued, bills⟩
    exact ⟨response, settled, reports, evaluates, queued, bills⟩
  · exact publishFills_taker stamp charges areFills

/-- Four contracts are bought from an offer. -/
theorem submission_billed_purchase :
    ∃ result next response settled reports,
      ExchangeVenue.submitOrder Sample.buyFour Sample.offeringVenue =
          .ok result next ∧
        processTradeResult Sample.fees
            { result := result
              order := Sample.buyFour
              team := { teamId := "TAKER", role := "market_maker" } }
            { positions := PositionManagementService.new
              websocketQueue := [] } =
          .ok response settled ∧
        Bills { makerRebate := 2, takerFee := -1 }
          { result := result
            order := Sample.buyFour
            team := { teamId := "TAKER", role := "market_maker" } }
          response reports := by
  have answers : (returned (ExchangeVenue.submitOrder Sample.buyFour
      Sample.offeringVenue)).isSome = true := by
    decide +kernel
  cases evaluated : ExchangeVenue.submitOrder Sample.buyFour
      Sample.offeringVenue with
  | error exception next =>
      rw [evaluated] at answers
      cases answers
  | ok result next =>
      have run : Run ObjectStep Sample.closedVenue
          (ObjectCall.operations Sample.continuousCalls)
          Sample.offeringVenue := by
        apply run_replay
        decide +kernel
      rcases (@submission_billed _ _ _ _
          (PhaseState.default .closed) (PhaseState.default .closed) _ run
          (Or.inl (by decide +kernel)) evaluated
          { teamId := "TAKER", role := "market_maker" } Sample.fees _ rfl
          Sample.stamp
          { positions := PositionManagementService.new
            websocketQueue := [] }).1 with
        ⟨response, settled, reports, processed, _, bills⟩
      exact ⟨result, next, response, settled, reports, rfl, processed,
        bills⟩

end Venue

end InternTradingGame
