import InternTradingGame.Positions.Settlement

/-!
# Are positions zero-sum?

A trade between two teams adds to one position what it takes from another.
Both settlement paths skip the counterparty of a self-trade but not the
aggressor, so a self-trade leaves its quantity in the sum of all positions,
with the sign of the aggressor.
-/

namespace InternTradingGame

open Effects

/-! ## What a fill adds to the sum -/

/-- The quantity with the sign of the side. -/
def OrderSide.signed (quantity : ℚ) : OrderSide → ℚ
  | .buy => quantity
  | .sell => -quantity

theorem OrderSide.signed_add (side : OrderSide) (first second : ℚ) :
    side.signed (first + second) =
      side.signed first + side.signed second := by
  cases side with
  | buy => rfl
  | sell => exact neg_add first second

/-- Both sides of the trade are the same team. -/
def Trade.IsSelfTrade (trade : Trade) : Prop :=
  trade.buyerId = trade.sellerId

instance (trade : Trade) : Decidable trade.IsSelfTrade :=
  inferInstanceAs (Decidable (_ = _))

/-- What a fill leaves in the sum of all positions. -/
def selfLeg (instrumentId : String) (fill : Trade) : ℚ :=
  if fill.IsSelfTrade ∧ fill.instrumentId = instrumentId then
    fill.aggressorSide.signed fill.quantity
  else
    0

theorem selfLeg_of_self {fill : Trade} (self : fill.IsSelfTrade)
    (instrumentId : String) :
    selfLeg instrumentId fill =
      if instrumentId = fill.instrumentId then
        fill.aggressorSide.signed fill.quantity
      else
        0 := by
  rw [selfLeg]
  by_cases same : instrumentId = fill.instrumentId
  · rw [if_pos same, if_pos ⟨self, same.symm⟩]
  · rw [if_neg same, if_neg fun both => same both.2.symm]

theorem selfLeg_of_not_self {fill : Trade} (other : ¬ fill.IsSelfTrade)
    (instrumentId : String) : selfLeg instrumentId fill = 0 :=
  if_neg fun both => other both.1

/-- The quantity self-traded by aggressors of one side. -/
def selfTraded (side : OrderSide) (instrumentId : String)
    (fills : List Trade) : ℚ :=
  (fills.map fun fill =>
    if fill.IsSelfTrade ∧ fill.instrumentId = instrumentId ∧
        fill.aggressorSide = side then
      fill.quantity
    else
      0).sum

/-- The sum keeps the difference between the two sides. -/
theorem sum_selfLeg (instrumentId : String) (fills : List Trade) :
    (fills.map (selfLeg instrumentId)).sum =
      selfTraded .buy instrumentId fills -
        selfTraded .sell instrumentId fills := by
  induction fills with
  | nil => simp [selfTraded]
  | cons fill rest induction =>
      simp only [selfTraded, List.map_cons, List.sum_cons] at induction ⊢
      rw [induction, selfLeg]
      by_cases self : fill.IsSelfTrade ∧ fill.instrumentId = instrumentId
      · rw [if_pos self]
        cases side : fill.aggressorSide with
        | buy =>
            simp only [self.1, self.2, OrderSide.signed, and_true,
              if_true, reduceCtorEq, and_false, if_false]
            ring
        | sell =>
            simp only [self.1, self.2, OrderSide.signed, and_true,
              if_true, reduceCtorEq, and_false, if_false]
            ring
      · rw [if_neg self, if_neg fun all => self ⟨all.1, all.2.1⟩,
          if_neg fun all => self ⟨all.1, all.2.1⟩]
        ring

/-! ## The position tracker -/

/-- The team submitted the order, and the order made the fills. -/
structure TradeData.Own (data : TradeData) : Prop where
  team : data.team.teamId = data.order.traderId
  fills : ∀ fill ∈ data.result.fills, AggressorFill data.order fill

/-- The counterparty of a fill, seen from the aggressor's side. -/
def counterpartyId (order : Order) (fill : Trade) : String :=
  match order.side with
  | .buy => fill.sellerId
  | .sell => fill.buyerId

/-- The counterparty is the aggressor exactly in a self-trade. -/
theorem AggressorFill.counterparty_eq_iff {order : Order} {fill : Trade}
    (isFill : AggressorFill order fill) :
    counterpartyId order fill = order.traderId ↔ fill.IsSelfTrade := by
  rw [counterpartyId]
  cases side : order.side with
  | buy =>
      have buyer := (isFill.buying side).2.1
      exact ⟨fun equal => buyer.trans equal.symm,
        fun self => (Eq.symm self).trans buyer⟩
  | sell =>
      have seller := (isFill.selling side).2.1
      exact ⟨fun equal => equal.trans seller.symm,
        fun self => Eq.trans self seller⟩

section Tracker

variable {order : Order} {team : TeamInfo} {fill : Trade}

theorem processAggressorPosition_eq (service : PositionManagementService) :
    processAggressorPosition fill order team service =
      service.updatePosition team.teamId order.instrumentId
        (order.side.signed fill.quantity) := by
  rw [processAggressorPosition]
  cases order.side <;> rfl

theorem processCounterpartyPosition_eq
    (service : PositionManagementService) :
    processCounterpartyPosition fill order team service =
      if counterpartyId order fill = team.teamId then
        service
      else
        service.updatePosition (counterpartyId order fill)
          order.instrumentId (-order.side.signed fill.quantity) := by
  rw [processCounterpartyPosition, counterpartyId]
  cases order.side with
  | buy => rfl
  | sell => simp only [OrderSide.signed, neg_neg]

/-- One fill adds its self-traded quantity to the sum. -/
theorem trackFill_total (own : team.teamId = order.traderId)
    (isFill : AggressorFill order fill)
    (service : PositionManagementService) (instrumentId : String) :
    (trackFill order team service fill).totalPosition instrumentId =
      service.totalPosition instrumentId + selfLeg instrumentId fill := by
  rw [trackFill, processCounterpartyPosition_eq,
    processAggressorPosition_eq, own]
  by_cases self : fill.IsSelfTrade
  · rw [if_pos (isFill.counterparty_eq_iff.mpr self),
      PositionManagementService.totalPosition_updatePosition,
      selfLeg_of_self self, isFill.instrument, isFill.aggressor]
  · rw [if_neg fun equal => self (isFill.counterparty_eq_iff.mp equal),
      PositionManagementService.totalPosition_updatePosition,
      PositionManagementService.totalPosition_updatePosition,
      selfLeg_of_not_self self]
    split_ifs <;> ring

/-- What the fills of a result add to the sum. -/
theorem trackFills_total (own : team.teamId = order.traderId)
    {fills : List Trade}
    (areFills : ∀ fill ∈ fills, AggressorFill order fill)
    (service : PositionManagementService) (instrumentId : String) :
    (fills.foldl (trackFill order team) service).totalPosition
        instrumentId =
      service.totalPosition instrumentId +
        (fills.map (selfLeg instrumentId)).sum := by
  induction fills generalizing service with
  | nil => simp
  | cons fill rest induction =>
      rw [List.foldl_cons, induction fun other member =>
          areFills other (List.mem_cons_of_mem _ member),
        trackFill_total own (areFills fill List.mem_cons_self),
        List.map_cons, List.sum_cons, add_assoc]

/-- All the fills of a sequence of results. -/
def fillsOf (queue : List TradeData) : List Trade :=
  queue.flatMap fun data => data.result.fills

/-- What the tracker adds to the sum. -/
theorem positionTrackerThread_total {queue : List TradeData}
    (own : ∀ data ∈ queue, data.Own)
    (service : PositionManagementService) (instrumentId : String) :
    (positionTrackerThread queue service).totalPosition instrumentId =
      service.totalPosition instrumentId +
        ((fillsOf queue).map (selfLeg instrumentId)).sum := by
  induction queue generalizing service with
  | nil => simp [positionTrackerThread, fillsOf]
  | cons data rest induction =>
      have isOwn := own data List.mem_cons_self
      have tracked := induction (fun other member =>
        own other (List.mem_cons_of_mem _ member))
        (trackResult service data)
      rw [positionTrackerThread] at tracked ⊢
      rw [List.foldl_cons, tracked, trackResult,
        trackFills_total isOwn.team isOwn.fills, fillsOf, fillsOf,
        List.flatMap_cons, List.map_append, List.sum_append, add_assoc]

end Tracker

/-! ## The trade processing service -/

section Service

theorem whole_sum {fills : List Trade} :
    Whole (fills.map Trade.quantity).sum := by
  apply Whole.sum
  intro quantity member
  rcases List.mem_map.mp member with ⟨fill, _, rfl⟩
  exact fill.quantity_whole

variable {order : Order} {team : TeamInfo} {fill : Trade}

open TradeProcessingService

theorem updateCounterparty_eq (isFill : AggressorFill order fill)
    (teamId : String) (service : PositionManagementService) :
    updateCounterparty order teamId service fill =
      if counterpartyId order fill = teamId then
        service
      else
        service.updatePosition (counterpartyId order fill)
          order.instrumentId (-order.side.signed fill.quantity) := by
  have whole := truncate_whole fill.quantity_whole
  rw [updateCounterparty, getCounterpartyInfo, counterpartyId]
  cases side : order.side with
  | buy =>
      have buyer := (isFill.buying side).1
      simp only [if_pos buyer.symm, OrderSide.signed]
      push_cast
      rw [whole, neg_one_mul]
  | sell =>
      have other := (isFill.selling side).2.2
      simp only [if_neg (Ne.symm other), OrderSide.signed]
      push_cast
      rw [whole, one_mul, neg_neg]

/-- What the aggressor of a fill adds to the sum. -/
def aggressorLeg (order : Order) (instrumentId : String)
    (quantity : ℚ) : ℚ :=
  if instrumentId = order.instrumentId then
    order.side.signed quantity
  else
    0

theorem aggressorLeg_add (instrumentId : String) (first second : ℚ) :
    aggressorLeg order instrumentId (first + second) =
      aggressorLeg order instrumentId first +
        aggressorLeg order instrumentId second := by
  rw [aggressorLeg, aggressorLeg, aggressorLeg]
  split_ifs
  · exact OrderSide.signed_add _ first second
  · ring

/-- The counterparty of a fill takes the aggressor's leg from the sum. -/
theorem updateCounterparty_total (isFill : AggressorFill order fill)
    (service : PositionManagementService) (instrumentId : String) :
    (updateCounterparty order order.traderId service
        fill).totalPosition instrumentId +
        aggressorLeg order instrumentId fill.quantity =
      service.totalPosition instrumentId + selfLeg instrumentId fill := by
  rw [updateCounterparty_eq isFill, aggressorLeg]
  by_cases self : fill.IsSelfTrade
  · rw [if_pos (isFill.counterparty_eq_iff.mpr self),
      selfLeg_of_self self, isFill.instrument, isFill.aggressor]
  · rw [if_neg fun equal => self (isFill.counterparty_eq_iff.mp equal),
      PositionManagementService.totalPosition_updatePosition,
      selfLeg_of_not_self self]
    split_ifs <;> ring

/-- What the counterparties of all fills take from the sum. -/
theorem updateCounterpartyPositions_total {fills : List Trade}
    (areFills : ∀ fill ∈ fills, AggressorFill order fill)
    (service : PositionManagementService) (instrumentId : String) :
    (updateCounterpartyPositions fills order order.traderId
        service).totalPosition instrumentId +
        aggressorLeg order instrumentId
          (fills.map Trade.quantity).sum =
      service.totalPosition instrumentId +
        (fills.map (selfLeg instrumentId)).sum := by
  rw [updateCounterpartyPositions]
  induction fills generalizing service with
  | nil =>
      rw [aggressorLeg]
      cases order.side <;> simp [OrderSide.signed]
  | cons fill rest induction =>
      have head := updateCounterparty_total
        (areFills fill List.mem_cons_self) service instrumentId
      have tail := induction
        (fun other member =>
          areFills other (List.mem_cons_of_mem _ member))
        (updateCounterparty order order.traderId service fill)
      simp only [List.foldl_cons, List.map_cons, List.sum_cons,
        aggressorLeg_add]
      linarith

theorem calculatePositionDelta_cast (quantity : ℤ) (side : OrderSide) :
    (calculatePositionDelta quantity side : ℚ) =
      side.signed (quantity : ℚ) := by
  cases side with
  | buy => rfl
  | sell => exact Int.cast_neg quantity

/-- Settling the fills of a result leaves what the tracker leaves. -/
theorem settleFills_total {data : TradeData} (own : data.Own)
    (service : PositionManagementService) (instrumentId : String) :
    (settleFills (truncate (data.result.fills.map Trade.quantity).sum)
        data service).totalPosition instrumentId =
      service.totalPosition instrumentId +
        (data.result.fills.map (selfLeg instrumentId)).sum := by
  have counterparties := updateCounterpartyPositions_total own.fills
    (service.updatePosition data.team.teamId data.order.instrumentId
      (calculatePositionDelta
        (truncate (data.result.fills.map Trade.quantity).sum)
        data.order.side)) instrumentId
  rw [PositionManagementService.totalPosition_updatePosition,
    calculatePositionDelta_cast, truncate_whole whole_sum,
    aggressorLeg] at counterparties
  rw [settleFills, calculatePositionDelta_cast,
    truncate_whole whole_sum, own.team]
  rw [own.team] at counterparties
  linarith

/-- A result with fills has a positive filled quantity. -/
theorem sum_quantity_pos {fills : List Trade} (some? : fills ≠ []) :
    0 < (fills.map Trade.quantity).sum := by
  induction fills with
  | nil => exact absurd rfl some?
  | cons fill rest induction =>
      rw [List.map_cons, List.sum_cons]
      have positive := fill.quantity_positive
      by_cases none : rest = []
      · subst none
        simpa using positive
      · have later := induction none
        linarith

/-- A fee is charged exactly for the roles which have a schedule. -/
theorem calculateFee_cases (feeService : TradingFeeService)
    (quantity : ℤ) (role : String) (aggressorSide orderSide : OrderSide) :
    (∃ fee, feeService.calculateFee quantity role
        (TradingFeeService.determineLiquidityType aggressorSide
          orderSide) = .ok fee) ∧
        feeService.roleFees.Contains role ∨
      (∃ exception, feeService.calculateFee quantity role
        (TradingFeeService.determineLiquidityType aggressorSide
          orderSide) = .error exception) ∧
        ¬ feeService.roleFees.Contains role := by
  cases found : feeService.roleFees.get? role with
  | none =>
      refine Or.inr ⟨?_, (OrderedDict.get?_eq_none_iff _ _).mp found⟩
      simp only [TradingFeeService.calculateFee, found]
      exact ⟨_, rfl⟩
  | some schedule =>
      refine Or.inl ⟨?_, OrderedDict.contains_of_get? found⟩
      simp only [TradingFeeService.calculateFee, found,
        TradingFeeService.determineLiquidityType]
      split_ifs
      · exact ⟨_, rfl⟩
      · exact ⟨_, rfl⟩

/-- Reporting a fill touches no position. -/
theorem processSingleFill_ends (feeService : TradingFeeService)
    (trade : Trade) (processing : TradeProcessing) :
    Ends (processSingleFill feeService trade order team) processing
      (fun _ reached =>
        reached.positions = processing.positions ∧
          feeService.roleFees.Contains team.role)
      (fun _ reached =>
        reached = processing ∧
          ¬ feeService.roleFees.Contains team.role) := by
  rcases calculateFee_cases feeService (truncate trade.quantity)
      team.role trade.aggressorSide order.side with
    ⟨⟨fee, charged⟩, known⟩ | ⟨⟨exception, raised⟩, unknown⟩
  · rw [processSingleFill, charged]
    exact ⟨rfl, known⟩
  · rw [processSingleFill, raised]
    exact ⟨rfl, unknown⟩

/-- Reporting the fills raises only for a role without fees. -/
theorem processFills_ends (feeService : TradingFeeService)
    (fills : List Trade) (fees : ℚ)
    (liquidityTypes : List LiquidityType)
    (processing : TradeProcessing) :
    Ends
      (processFills feeService order team fills fees liquidityTypes)
      processing
      (fun _ reached =>
        reached.positions = processing.positions ∧
          (fills ≠ [] → feeService.roleFees.Contains team.role))
      (fun _ reached =>
        reached.positions = processing.positions ∧
          ¬ feeService.roleFees.Contains team.role) := by
  induction fills generalizing fees liquidityTypes processing with
  | nil => exact ⟨rfl, fun impossible => absurd rfl impossible⟩
  | cons fill rest induction =>
      rw [processFills]
      have head : Ends (processSingleFill feeService fill order team)
          processing
          (fun _ reached =>
            reached.positions = processing.positions ∧
              feeService.roleFees.Contains team.role)
          (fun _ reached =>
            reached.positions = processing.positions ∧
              ¬ feeService.roleFees.Contains team.role) := by
        refine (processSingleFill_ends feeService fill processing).mono
          (fun _ _ facts => facts) ?_
        rintro _ reached ⟨rfl, unknown⟩
        exact ⟨rfl, unknown⟩
      apply head.bind
      rintro ⟨fee, liquidityType⟩ reached ⟨same, known⟩
      refine (induction _ _ reached).mono ?_ ?_
      · rintro _ final ⟨finalSame, _⟩
        exact ⟨finalSame.trans same, fun _ => known⟩
      · rintro _ final ⟨finalSame, unknown⟩
        exact absurd known unknown

/-- A result is settled unless its fills cannot be charged. -/
def Chargeable (feeService : TradingFeeService) (data : TradeData) :
    Prop :=
  feeService.roleFees.Contains data.team.role

instance (feeService : TradingFeeService) (data : TradeData) :
    Decidable (Chargeable feeService data) :=
  inferInstanceAs (Decidable (feeService.roleFees.Contains _))

/-- How processing a result ends, as far as positions are concerned. -/
theorem processTradeResult_ends (feeService : TradingFeeService)
    (data : TradeData) (processing : TradeProcessing) :
    Ends (processTradeResult feeService data) processing
      (fun _ reached =>
        data.result.fills = [] ∧
            reached.positions = processing.positions ∨
          data.result.fills ≠ [] ∧ Chargeable feeService data ∧
            reached.positions =
              settleFills
                (truncate (data.result.fills.map Trade.quantity).sum)
                data processing.positions)
      (fun _ reached =>
        ¬ Chargeable feeService data ∧
          reached.positions = processing.positions) := by
  rw [processTradeResult]
  by_cases none : data.result.fills = []
  · have zero :
        ¬ 0 < truncate (data.result.fills.map Trade.quantity).sum := by
      rw [none]
      decide +kernel
    simp only [if_neg zero]
    exact Or.inl ⟨none, rfl⟩
  · have positive :
        0 < truncate (data.result.fills.map Trade.quantity).sum := by
      have sumPositive := sum_quantity_pos none
      rw [← truncate_whole whole_sum] at sumPositive
      exact_mod_cast sumPositive
    simp only [if_pos positive]
    apply Ends.bind ((processFills_ends feeService data.result.fills 0 []
      processing).mono (fun _ _ facts => facts) ?_)
    · rintro ⟨fees, liquidityTypes⟩ reached ⟨same, known⟩
      refine Or.inr ⟨none, known none, ?_⟩
      change settleFills _ data reached.positions = _
      rw [same]
    · rintro exception reached ⟨same, unknown⟩
      exact ⟨unknown, same⟩

/-- What processing a result adds to the sum. -/
theorem processTradeResult_total (feeService : TradingFeeService)
    {data : TradeData} (own : data.Own) (processing : TradeProcessing)
    (instrumentId : String) :
    (finalState (processTradeResult feeService data
        processing)).positions.totalPosition instrumentId =
      processing.positions.totalPosition instrumentId +
        if Chargeable feeService data then
          (data.result.fills.map (selfLeg instrumentId)).sum
        else
          0 := by
  have ends := processTradeResult_ends feeService data processing
  cases evaluated : processTradeResult feeService data processing with
  | ok response reached =>
      rw [finalState_ok]
      rcases ends.elim_ok evaluated with
        ⟨none, same⟩ | ⟨_, chargeable, settled⟩
      · rw [same, none]
        simp
      · rw [settled, settleFills_total own, if_pos chargeable]
  | error exception reached =>
      rcases ends.elim_error evaluated with ⟨notChargeable, same⟩
      rw [finalState_error, same, if_neg notChargeable, add_zero]

/-- What processing all results adds to the sum. -/
theorem processAll_total (feeService : TradingFeeService)
    {queue : List TradeData} (own : ∀ data ∈ queue, data.Own)
    (processing : TradeProcessing) (instrumentId : String) :
    (processAll feeService queue
        processing).positions.totalPosition instrumentId =
      processing.positions.totalPosition instrumentId +
        ((fillsOf (queue.filter (Chargeable feeService ·))).map
          (selfLeg instrumentId)).sum := by
  induction queue generalizing processing with
  | nil => simp [processAll, fillsOf]
  | cons data rest induction =>
      have processed := induction
        (fun other member => own other (List.mem_cons_of_mem _ member))
        (finalState (processTradeResult feeService data processing))
      rw [processAll] at processed ⊢
      rw [List.foldl_cons, processed,
        processTradeResult_total feeService (own data List.mem_cons_self)]
      by_cases chargeable : Chargeable feeService data
      · rw [if_pos chargeable, List.filter_cons_of_pos (by
            simpa using chargeable), fillsOf, fillsOf,
          List.flatMap_cons, List.map_append, List.sum_append, add_assoc]
      · rw [if_neg chargeable, List.filter_cons_of_neg (by
            simpa using chargeable), add_zero]

end Service

/-! ## The results of a run -/

/-- What a submission which returns hands on. -/
def VenueCall.tradeData (roles : String → String) :
    VenueCall → ExchangeVenue → List TradeData
  | .submitOrder order, venue =>
      match ExchangeVenue.submitOrder order venue with
      | .ok result _ =>
          [{ result := result
             order := order
             team :=
              { teamId := order.traderId
                role := roles order.traderId } }]
      | .error _ _ => []
  | _, _ => []

/-- The results of all submissions of a run, in their order. -/
def tradeDataOf (roles : String → String) :
    ExchangeVenue → List VenueCall → List TradeData
  | _, [] => []
  | venue, call :: rest =>
      call.tradeData roles venue ++
        tradeDataOf roles (call.execute venue) rest

theorem tradeData_own {venue : ExchangeVenue} {call : VenueCall}
    (roles : String → String) (shape : VenueShape venue)
    (allowed : call.Allowed venue) :
    ∀ data ∈ call.tradeData roles venue, data.Own := by
  cases call with
  | submitOrder order =>
      have ends := submitOrder_ends shape allowed
      rw [VenueCall.tradeData]
      cases evaluated : ExchangeVenue.submitOrder order venue with
      | error exception next =>
          exact fun _ impossible => absurd impossible List.not_mem_nil
      | ok result next =>
          intro data member
          rw [List.mem_singleton.mp member]
          exact ⟨rfl, (ends.elim_ok evaluated).aggressorFill shape⟩
  | _ => exact fun _ impossible => absurd impossible List.not_mem_nil

/-- The results of a run are those of its own orders. -/
theorem tradeDataOf_own (roles : String → String)
    {start venue : ExchangeVenue} {calls : List VenueCall}
    (shape : VenueShape start) (run : Run VenueStep start calls venue) :
    ∀ data ∈ tradeDataOf roles start calls, data.Own := by
  induction calls generalizing start with
  | nil => exact fun _ impossible => absurd impossible List.not_mem_nil
  | cons call rest induction =>
      rcases run.first_step with ⟨middle, step, restRun⟩
      have advances := venueStep_advances shape step
      rcases step with ⟨allowed, rfl⟩
      intro data member
      rcases List.mem_append.mp member with first | later
      · exact tradeData_own roles shape allowed data first
      · exact induction advances.1 restRun data later

/-! ## The sum of all positions -/

/-- The positions after the tracker has worked on the results of a run. -/
def trackedPositions (roles : String → String) (start : ExchangeVenue)
    (calls : List VenueCall) : PositionManagementService :=
  positionTrackerThread (tradeDataOf roles start calls)
    PositionManagementService.new

/-- The positions after the processing service has worked on them. -/
def processedPositions (feeService : TradingFeeService)
    (roles : String → String) (start : ExchangeVenue)
    (calls : List VenueCall) : PositionManagementService :=
  (TradeProcessingService.processAll feeService
    (tradeDataOf roles start calls)
    { positions := PositionManagementService.new
      websocketQueue := [] }).positions

/-- Self-trades with a buying and with a selling aggressor balance. -/
def SelfTradesBalance (instrumentId : String) (queue : List TradeData) :
    Prop :=
  selfTraded .buy instrumentId (fillsOf queue) =
    selfTraded .sell instrumentId (fillsOf queue)

/--
The positions of all teams in an instrument sum to zero if and only if the
self-traded quantities of buying and of selling aggressors are the same.
The processing service settles the results it can charge fees for.  In the
run an id stands for one order.
-/
theorem positions_zeroSum_iff {cached baseline : PhaseState}
    {calls : List VenueCall} {venue : ExchangeVenue}
    (run :
      Run VenueStep (ExchangeVenue.new cached baseline) calls venue)
    (feeService : TradingFeeService) (roles : String → String)
    (instrumentId : String) :
    ((trackedPositions roles (ExchangeVenue.new cached baseline)
          calls).totalPosition instrumentId = 0 ↔
        SelfTradesBalance instrumentId
          (tradeDataOf roles (ExchangeVenue.new cached baseline)
            calls)) ∧
      ((processedPositions feeService roles
          (ExchangeVenue.new cached baseline)
            calls).totalPosition instrumentId = 0 ↔
        SelfTradesBalance instrumentId
          ((tradeDataOf roles (ExchangeVenue.new cached baseline)
            calls).filter (Chargeable feeService ·))) := by
  have own := tradeDataOf_own roles (VenueShape.new cached baseline) run
  constructor
  · rw [trackedPositions, positionTrackerThread_total own,
      PositionManagementService.totalPosition_new, zero_add, sum_selfLeg,
      sub_eq_zero, SelfTradesBalance]
  · rw [processedPositions, processAll_total feeService own,
      PositionManagementService.totalPosition_new, zero_add, sum_selfLeg,
      sub_eq_zero, SelfTradesBalance]

namespace Sample

/-- A team sells, and another team buys a part of it at once. -/
def continuousTrade : List VenueCall :=
  continuousCalls ++ [.submitOrder buyFour]

/-- The selling team buys from itself. -/
def selfTrade : List VenueCall :=
  continuousCalls ++
    [.submitOrder { buyFour with traderId := "MAKER" }]

/-- A fee schedule for the only role. -/
def fees : TradingFeeService where
  roleFees :=
    (∅ : OrderedDict String FeeSchedule).set "market_maker"
      { makerRebate := 2, takerFee := -1 }

/-- Every team is a market maker. -/
def roles : String → String :=
  fun _ => "market_maker"

end Sample

theorem positions_zeroSum_two_teams :
    ((trackedPositions Sample.roles Sample.closedVenue
          Sample.continuousTrade).totalPosition "CALL" = 0 ↔
        SelfTradesBalance "CALL"
          (tradeDataOf Sample.roles Sample.closedVenue
            Sample.continuousTrade)) ∧
      ((processedPositions Sample.fees Sample.roles Sample.closedVenue
            Sample.continuousTrade).totalPosition "CALL" = 0 ↔
        SelfTradesBalance "CALL"
          ((tradeDataOf Sample.roles Sample.closedVenue
            Sample.continuousTrade).filter
              (Chargeable Sample.fees ·))) :=
  positions_zeroSum_iff (run_replay (by decide +kernel)) Sample.fees
    Sample.roles "CALL"

/-- On neither path does a self-trade leave the sum at zero. -/
theorem selfTrade_breaks_zeroSum :
    (¬ ∀ (cached baseline : PhaseState) (calls : List VenueCall)
          (venue : ExchangeVenue) (roles : String → String)
          (instrumentId : String),
        Run VenueStep (ExchangeVenue.new cached baseline) calls venue →
          (trackedPositions roles (ExchangeVenue.new cached baseline)
            calls).totalPosition instrumentId = 0) ∧
      ¬ ∀ (cached baseline : PhaseState) (calls : List VenueCall)
          (venue : ExchangeVenue) (feeService : TradingFeeService)
          (roles : String → String) (instrumentId : String),
        Run VenueStep (ExchangeVenue.new cached baseline) calls venue →
          (processedPositions feeService roles
            (ExchangeVenue.new cached baseline)
              calls).totalPosition instrumentId = 0 := by
  constructor
  · intro zero
    have sum := zero (PhaseState.default .closed)
      (PhaseState.default .closed) Sample.selfTrade _ Sample.roles
      "CALL"
      (run_replay (by decide +kernel))
    have four : (trackedPositions Sample.roles Sample.closedVenue
        Sample.selfTrade).totalPosition "CALL" = 4 := by
      decide +kernel
    exact absurd (four.symm.trans sum) (by decide +kernel)
  · intro zero
    have sum := zero (PhaseState.default .closed)
      (PhaseState.default .closed) Sample.selfTrade _ Sample.fees
      Sample.roles "CALL" (run_replay (by decide +kernel))
    have four : (processedPositions Sample.fees Sample.roles
        Sample.closedVenue Sample.selfTrade).totalPosition "CALL" = 4 := by
      decide +kernel
    exact absurd (four.symm.trans sum) (by decide +kernel)

end InternTradingGame
