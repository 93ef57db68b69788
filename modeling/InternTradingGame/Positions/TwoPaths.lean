import InternTradingGame.Positions.ZeroSum

/-!
# Both settlement paths leave the same positions

The tracker updates the aggressor and the counterparty of every fill in
turn.  The processing service updates the aggressor once, by the quantity of
all fills, and then the counterparties.  Updates of different positions may
be exchanged as soon as the position of the aggressor is there, and updates
of the same position add up.
-/

namespace InternTradingGame

open Effects

/-! ## Updates of positions -/

namespace PositionManagementService

/-- The service holds a number for the team and the instrument. -/
def Holds (service : PositionManagementService)
    (teamId instrumentId : String) : Prop :=
  ∃ positions, service.positions.get? teamId = some positions ∧
    positions.Contains instrumentId

section Update

variable (service : PositionManagementService)
  (teamId instrumentId : String)

theorem teamPositions_updatePosition (delta : ℚ) :
    (service.updatePosition teamId instrumentId delta).teamPositions
        teamId =
      (service.teamPositions teamId).set instrumentId
        (((service.teamPositions teamId).get? instrumentId).getD 0 +
          delta) := by
  rw [teamPositions, updatePosition, OrderedDict.get?_set_self,
    Option.getD_some]

theorem teamPositions_updatePosition_ne {other : String}
    (different : other ≠ teamId) (delta : ℚ) :
    (service.updatePosition teamId instrumentId delta).teamPositions
        other =
      service.teamPositions other := by
  rw [teamPositions, updatePosition,
    OrderedDict.get?_set_ne _ _ different, teamPositions]

theorem holds_updatePosition (delta : ℚ) :
    (service.updatePosition teamId instrumentId delta).Holds teamId
      instrumentId := by
  refine ⟨_, OrderedDict.get?_set_self _ _ _, ?_⟩
  exact (OrderedDict.contains_set _ _ _ _).mpr (Or.inl rfl)

/-- Two updates of one position add up. -/
theorem updatePosition_updatePosition (first second : ℚ) :
    (service.updatePosition teamId instrumentId first).updatePosition
        teamId instrumentId second =
      service.updatePosition teamId instrumentId (first + second) := by
  rw [updatePosition, teamPositions_updatePosition,
    OrderedDict.get?_set_self, Option.getD_some, OrderedDict.set_set,
    add_assoc, updatePosition, OrderedDict.set_set, updatePosition]

variable {service teamId instrumentId}

/-- A held position stays held. -/
theorem Holds.updatePosition (holds : service.Holds teamId instrumentId)
    (otherTeam otherInstrument : String) (delta : ℚ) :
    (service.updatePosition otherTeam otherInstrument delta).Holds teamId
      instrumentId := by
  rcases holds with ⟨positions, found, contains⟩
  by_cases same : teamId = otherTeam
  · subst same
    refine ⟨_, OrderedDict.get?_set_self _ _ _, ?_⟩
    rw [teamPositions, found, Option.getD_some, OrderedDict.contains_set]
    exact Or.inr contains
  · refine ⟨positions, ?_, contains⟩
    rw [PositionManagementService.updatePosition,
      OrderedDict.get?_set_ne _ _ same]
    exact found

/-- Adding nothing to a held position changes nothing. -/
theorem Holds.updatePosition_zero
    (holds : service.Holds teamId instrumentId) :
    service.updatePosition teamId instrumentId 0 = service := by
  rcases holds with ⟨positions, found, contains⟩
  rcases (OrderedDict.contains_iff_exists _ _).mp contains with
    ⟨position, stored⟩
  rw [PositionManagementService.updatePosition, teamPositions, found,
    Option.getD_some, stored, Option.getD_some, add_zero,
    OrderedDict.set_of_get? stored, OrderedDict.set_of_get? found]

/-- Updates of different teams may be exchanged. -/
theorem Holds.updatePosition_comm
    (holds : service.Holds teamId instrumentId) {otherTeam : String}
    (different : teamId ≠ otherTeam) (otherInstrument : String)
    (delta otherDelta : ℚ) :
    (service.updatePosition otherTeam otherInstrument
        otherDelta).updatePosition teamId instrumentId delta =
      (service.updatePosition teamId instrumentId delta).updatePosition
        otherTeam otherInstrument otherDelta := by
  rcases holds with ⟨positions, found, _⟩
  have present : service.positions.Contains teamId :=
    OrderedDict.contains_of_get? found
  rw [PositionManagementService.updatePosition,
    teamPositions_updatePosition_ne _ _ _ different,
    PositionManagementService.updatePosition,
    OrderedDict.set_comm_of_contains different present,
    PositionManagementService.updatePosition,
    teamPositions_updatePosition_ne _ _ _ (Ne.symm different),
    PositionManagementService.updatePosition]

end Update

end PositionManagementService

/-! ## The two orders of the updates -/

section Fills

open TradeProcessingService

variable {order : Order} {service : PositionManagementService}

/-- The update of the aggressor for a quantity of fills. -/
def updateAggressor (order : Order) (quantity : ℚ)
    (service : PositionManagementService) : PositionManagementService :=
  service.updatePosition order.traderId order.instrumentId
    (order.side.signed quantity)

theorem updateAggressor_updateAggressor (first second : ℚ) :
    updateAggressor order second (updateAggressor order first service) =
      updateAggressor order (first + second) service := by
  rw [updateAggressor, updateAggressor,
    PositionManagementService.updatePosition_updatePosition,
    ← OrderSide.signed_add, updateAggressor]

/-- The tracker settles a fill by two updates. -/
theorem trackFill_eq {team : TeamInfo} {fill : Trade}
    (own : team.teamId = order.traderId)
    (isFill : AggressorFill order fill) :
    trackFill order team service fill =
      updateCounterparty order order.traderId
        (updateAggressor order fill.quantity service) fill := by
  rw [trackFill, processCounterpartyPosition_eq,
    processAggressorPosition_eq, updateCounterparty_eq isFill, own,
    updateAggressor]

/-- The update of a counterparty leaves held positions held. -/
theorem PositionManagementService.Holds.updateCounterparty
    {teamId instrumentId aggressorId : String}
    (holds : service.Holds teamId instrumentId) (fill : Trade) :
    (TradeProcessingService.updateCounterparty order aggressorId service
      fill).Holds teamId instrumentId := by
  rw [TradeProcessingService.updateCounterparty]
  split_ifs
  · exact holds
  · exact holds.updatePosition _ _ _

/-- The aggressor may be updated before or after a counterparty. -/
theorem updateAggressor_updateCounterparty {fill : Trade}
    (holds : service.Holds order.traderId order.instrumentId)
    (isFill : AggressorFill order fill) (quantity : ℚ) :
    updateAggressor order quantity
        (updateCounterparty order order.traderId service fill) =
      updateCounterparty order order.traderId
        (updateAggressor order quantity service) fill := by
  rw [updateCounterparty_eq isFill, updateCounterparty_eq isFill]
  by_cases self : counterpartyId order fill = order.traderId
  · rw [if_pos self, if_pos self]
  · rw [if_neg self, if_neg self]
    exact holds.updatePosition_comm (Ne.symm self) _ _ _

/-- Fill by fill, or the aggressor first: the positions are the same. -/
theorem trackFills_eq {team : TeamInfo} {fills : List Trade}
    (own : team.teamId = order.traderId)
    (areFills : ∀ fill ∈ fills, AggressorFill order fill)
    (holds : service.Holds order.traderId order.instrumentId) :
    fills.foldl (trackFill order team) service =
      updateCounterpartyPositions fills order order.traderId
        (updateAggressor order (fills.map Trade.quantity).sum
          service) := by
  rw [updateCounterpartyPositions]
  induction fills generalizing service with
  | nil =>
      have nothing : order.side.signed 0 = 0 := by
        cases order.side <;> rfl
      show service = updateAggressor order 0 service
      rw [updateAggressor, nothing, holds.updatePosition_zero]
  | cons fill rest induction =>
      have isFill := areFills fill List.mem_cons_self
      have updated :
          (updateAggressor order fill.quantity service).Holds
            order.traderId order.instrumentId :=
        holds.updatePosition _ _ _
      rw [List.foldl_cons, List.foldl_cons, List.map_cons,
        List.sum_cons, trackFill_eq own isFill,
        induction
          (fun other member =>
            areFills other (List.mem_cons_of_mem _ member))
          (updated.updateCounterparty fill),
        updateAggressor_updateCounterparty updated isFill,
        updateAggressor_updateAggressor]

/-- A result with fills need not find a position of the aggressor. -/
theorem trackFills_eq_of_ne_nil {team : TeamInfo} {fills : List Trade}
    (own : team.teamId = order.traderId)
    (areFills : ∀ fill ∈ fills, AggressorFill order fill)
    (nonempty : fills ≠ []) :
    fills.foldl (trackFill order team) service =
      updateCounterpartyPositions fills order order.traderId
        (updateAggressor order (fills.map Trade.quantity).sum
          service) := by
  cases fills with
  | nil => exact absurd rfl nonempty
  | cons fill rest =>
      have isFill := areFills fill List.mem_cons_self
      have updated :
          (updateAggressor order fill.quantity service).Holds
            order.traderId order.instrumentId :=
        service.holds_updatePosition _ _ _
      rw [List.foldl_cons, trackFill_eq own isFill,
        trackFills_eq own
          (fun other member =>
            areFills other (List.mem_cons_of_mem _ member))
          (updated.updateCounterparty fill),
        updateAggressor_updateCounterparty updated isFill,
        updateAggressor_updateAggressor, updateCounterpartyPositions,
        updateCounterpartyPositions, List.foldl_cons, List.map_cons,
        List.sum_cons]

end Fills

/-! ## The two paths -/

/-- Settling all fills at once leaves what the tracker leaves. -/
theorem settleFills_eq {data : TradeData} (own : data.Own)
    (nonempty : data.result.fills ≠ [])
    (service : PositionManagementService) :
    TradeProcessingService.settleFills
        (truncate (data.result.fills.map Trade.quantity).sum) data
        service =
      trackResult service data := by
  rw [trackResult, trackFills_eq_of_ne_nil own.team own.fills nonempty,
    TradeProcessingService.settleFills,
    calculatePositionDelta_cast,
    truncate_whole whole_sum, own.team, updateAggressor]

/--
The processing service and one iteration of the tracker thread leave the
same positions for the result of every submission, in a run in which an id
stands for one order.
-/
theorem settlementPaths_agree {cached baseline : PhaseState}
    {calls : List VenueCall} {venue next : ExchangeVenue}
    (run :
      Run VenueStep (ExchangeVenue.new cached baseline) calls venue)
    {order : Order} {result : OrderResult}
    (allowed : (VenueCall.submitOrder order).Allowed venue)
    (submits : ExchangeVenue.submitOrder order venue = .ok result next)
    {team : TeamInfo} (own : team.teamId = order.traderId)
    {feeService : TradingFeeService}
    (known : feeService.roleFees.Contains team.role)
    (processing : TradeProcessing) :
    ∃ response reached,
      TradeProcessingService.processTradeResult feeService
          { result, order, team } processing =
        .ok response reached ∧
      reached.positions =
        trackResult processing.positions { result, order, team } := by
  have shape := VenueShape.of_run (VenueShape.new cached baseline) run
  have returns := (submitOrder_ends shape allowed).elim_ok submits
  have isOwn : TradeData.Own { result, order, team } :=
    ⟨own, returns.aggressorFill shape⟩
  have ends := processTradeResult_ends feeService
    { result, order, team } processing
  cases evaluated : TradeProcessingService.processTradeResult feeService
      { result, order, team } processing with
  | error exception reached =>
      exact absurd known (ends.elim_error evaluated).1
  | ok response reached =>
      refine ⟨response, reached, rfl, ?_⟩
      rcases ends.elim_ok evaluated with
        ⟨none, same⟩ | ⟨nonempty, _, settled⟩
      · have nothing : result.fills = [] := none
        rw [same, trackResult, nothing]
        rfl
      · rw [settled, settleFills_eq isOwn nonempty]

namespace Sample

/-- A venue in which a team offers ten contracts. -/
def offeringVenue : ExchangeVenue :=
  replay VenueCall.execute closedVenue continuousCalls

end Sample

theorem settlementPaths_agree_sale :
    ∃ result next,
      ExchangeVenue.submitOrder Sample.buyFour Sample.offeringVenue =
          .ok result next ∧
        result.fills.length = 1 ∧
        ∃ response reached,
          TradeProcessingService.processTradeResult Sample.fees
              { result := result
                order := Sample.buyFour
                team := { teamId := "TAKER", role := "market_maker" } }
              { positions := PositionManagementService.new
                websocketQueue := [] } =
            .ok response reached ∧
          reached.positions =
            trackResult PositionManagementService.new
              { result := result
                order := Sample.buyFour
                team :=
                  { teamId := "TAKER", role := "market_maker" } } := by
  have filled :
      (returned (ExchangeVenue.submitOrder Sample.buyFour
        Sample.offeringVenue)).map (fun result => result.fills.length) =
          some 1 := by
    decide +kernel
  cases evaluated : ExchangeVenue.submitOrder Sample.buyFour
      Sample.offeringVenue with
  | error exception next =>
      rw [evaluated] at filled
      cases filled
  | ok result next =>
      rw [evaluated] at filled
      refine ⟨result, next, rfl, Option.some.inj filled, ?_⟩
      have run : Run VenueStep Sample.closedVenue Sample.continuousCalls
          Sample.offeringVenue :=
        run_replay (by decide +kernel)
      exact settlementPaths_agree run (by decide +kernel) evaluated rfl
        (by decide +kernel) _

end InternTradingGame
