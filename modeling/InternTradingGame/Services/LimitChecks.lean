import InternTradingGame.Services.OrderValidator

/-!
# The limit checks and the position service

The validator computes the positions an order would lead to from a copy of
the team's positions, the portfolio check by taking one absolute value out of
the sum and putting another in.  The position service updates its own map and
sums again.  A role which has limits only accepts an order exactly when the
updated service is within all of them.
-/

namespace InternTradingGame

/-! ## What the limit checks compute -/

section Limits

variable (context : ValidationContext) (config : ConstraintConfig)

theorem AtMost.abs_iff (value : ℚ) (bound : Option ℚ) :
    AtMost |value| bound ↔ AtMost (-value) bound ∧ AtMost value bound := by
  cases bound with
  | none => exact iff_of_true trivial ⟨trivial, trivial⟩
  | some limit =>
      show |value| ≤ limit ↔ -value ≤ limit ∧ value ≤ limit
      rw [abs_le, neg_le]

/-- Both styles of the position limit bound the absolute position. -/
theorem PositionLimitConstraint.isValid_iff :
    (PositionLimitConstraint.check context config).isValid = true ↔
      AtMost |context.current + context.order.signedQuantity|
        config.parameters.maxPosition := by
  rw [PositionLimitConstraint.check]
  by_cases symmetric : config.parameters.symmetric.getD false = true
  · rw [if_pos symmetric, AtMost.abs_iff]
    split_ifs with inside
    · exact iff_of_true rfl inside
    · exact iff_of_false not_false inside
  · rw [if_neg symmetric]
    split_ifs with inside
    · exact iff_of_true rfl inside
    · exact iff_of_false not_false inside

theorem PortfolioLimitConstraint.isValid_iff :
    (PortfolioLimitConstraint.check context config).isValid = true ↔
      AtMost
        ((context.currentPositions.values.map fun position =>
              |position|).sum -
            |context.current| +
          |context.current + context.order.signedQuantity|)
        config.parameters.maxTotalPosition := by
  rw [PortfolioLimitConstraint.check]
  split_ifs with inside
  · exact iff_of_true rfl inside
  · exact iff_of_false not_false inside

end Limits

/--
The configuration is a position limit or a portfolio limit, the two kinds
which bound the positions of a team.
-/
def ConstraintConfig.IsLimit (config : ConstraintConfig) : Prop :=
  config.constraintType = .positionLimit ∨
    config.constraintType = .portfolioLimit

instance (config : ConstraintConfig) : Decidable config.IsLimit :=
  inferInstanceAs (Decidable (_ ∨ _))

/--
The team is within a limit, as the position service sees it: the bound is on
what the service reports and not on what a check computes.
-/
structure WithinLimit (service : PositionManagementService)
    (teamId instrumentId : String) (config : ConstraintConfig) : Prop where
  position : config.constraintType = .positionLimit →
    AtMost |service.getPositionForInstrument teamId instrumentId|
      config.parameters.maxPosition
  portfolio : config.constraintType = .portfolioLimit →
    AtMost (service.getTotalAbsolutePosition teamId)
      config.parameters.maxTotalPosition

/--
The positions if the whole order trades, by one update of the position
service.
-/
def PositionManagementService.afterOrder
    (service : PositionManagementService) (teamId : String)
    (order : Order) : PositionManagementService :=
  service.updatePosition teamId order.instrumentId order.signedQuantity

/--
The context of an order of a team, with a copy of the positions the service
holds for the team.
-/
def ValidationContext.ofTeam (service : PositionManagementService)
    (teamId role : String) (order : Order) (ordersThisSecond : ℕ) :
    ValidationContext where
  order := order
  traderId := teamId
  traderRole := role
  currentPositions := service.getPositions teamId
  ordersThisSecond := ordersThisSecond

section Predict

variable (service : PositionManagementService) (teamId role : String)
  (order : Order) (ordersThisSecond : ℕ)

theorem ValidationContext.current_ofTeam :
    (ValidationContext.ofTeam service teamId role order
        ordersThisSecond).current =
      service.getPositionForInstrument teamId order.instrumentId := by
  rw [PositionManagementService.getPositionForInstrument_eq]
  rfl

theorem getPositionForInstrument_afterOrder :
    (service.afterOrder teamId order).getPositionForInstrument teamId
        order.instrumentId =
      service.getPositionForInstrument teamId order.instrumentId +
        order.signedQuantity := by
  rw [PositionManagementService.afterOrder,
    PositionManagementService.getPositionForInstrument_updatePosition,
    if_pos ⟨rfl, rfl⟩]

/-- The default check of a limit predicts the position service. -/
theorem ConstraintConfig.IsLimit.predicted {config : ConstraintConfig}
    (isLimit : config.IsLimit)
    (roleConstraints : OrderedDict String (List ConstraintConfig)) :
    ConstraintBasedOrderValidator.Satisfies
        { constraints := .default, roleConstraints }
        (.ofTeam service teamId role order ordersThisSecond) config ↔
      WithinLimit (service.afterOrder teamId order) teamId
        order.instrumentId config := by
  rcases isLimit with kind | kind
  · have registered :
        ConstraintRegistry.default config.constraintType =
          some PositionLimitConstraint.check := by
      rw [kind]
      rfl
    rw [ConstraintBasedOrderValidator.satisfies_iff registered,
      PositionLimitConstraint.isValid_iff,
      ValidationContext.current_ofTeam]
    constructor
    · intro within
      constructor
      · intro _
        rw [getPositionForInstrument_afterOrder]
        exact within
      · intro other
        cases kind.symm.trans other
    · intro within
      have bounded := within.position kind
      rw [getPositionForInstrument_afterOrder] at bounded
      exact bounded
  · have total := service.getTotalAbsolutePosition_updatePosition teamId
      order.instrumentId order.signedQuantity
    have registered :
        ConstraintRegistry.default config.constraintType =
          some PortfolioLimitConstraint.check := by
      rw [kind]
      rfl
    rw [ConstraintBasedOrderValidator.satisfies_iff registered,
      PortfolioLimitConstraint.isValid_iff,
      ValidationContext.current_ofTeam]
    constructor
    · intro within
      constructor
      · intro other
        cases kind.symm.trans other
      · intro _
        rw [PositionManagementService.afterOrder, total]
        exact within
    · intro within
      have bounded := within.portfolio kind
      rw [PositionManagementService.afterOrder, total] at bounded
      exact bounded

end Predict

/--
A role with limits only accepts an order exactly when the position service,
updated by the whole order, is within every limit.  A rejection has the code
of the first limit that is broken.
-/
theorem ConstraintBasedOrderValidator.validateOrder_predicts
    (roleConstraints : OrderedDict String (List ConstraintConfig))
    (service : PositionManagementService) (teamId role : String)
    (order : Order) (ordersThisSecond : ℕ)
    (limits : ∀ config ∈ (roleConstraints.get? role).getD [],
      config.IsLimit) :
    AnswersFor
      (WithinLimit (service.afterOrder teamId order) teamId
        order.instrumentId)
      ((roleConstraints.get? role).getD [])
      (ConstraintBasedOrderValidator.validateOrder
        { constraints := .default, roleConstraints }
        (.ofTeam service teamId role order ordersThisSecond)) := by
  have answers := validateOrder_answersFor
    { constraints := .default, roleConstraints }
    (.ofTeam service teamId role order ordersThisSecond)
  refine answers.congr ?_
  intro config member
  exact (limits config member).predicted service teamId role order
    ordersThisSecond roleConstraints

/-! ## Three contracts held, four more wanted -/

namespace Sample

/-- At most six contracts of an instrument, and ten in all. -/
def sixOfEach : List ConstraintConfig :=
  [ { constraintType := .portfolioLimit
      parameters := { maxTotalPosition := some 10 }
      errorCode := "MM_PORTFOLIO_LIMIT"
      errorMessage := "Portfolio limit exceeded" },
    { constraintType := .positionLimit
      parameters := { maxPosition := some 6, symmetric := some true }
      errorCode := "MM_POS_LIMIT"
      errorMessage := "Position limit exceeded" } ]

/--
Market makers have a portfolio limit of ten and a position limit of six.
-/
def limitedRoles : OrderedDict String (List ConstraintConfig) :=
  OrderedDict.set ∅ "market_maker" sixOfEach

/-- One team holds three contracts and the others none. -/
def threeHeld : PositionManagementService :=
  PositionManagementService.new.updatePosition "TAKER" "CALL" 3

end Sample

/-- The portfolio limit is kept, the position limit is the first broken. -/
theorem ConstraintBasedOrderValidator.validateOrder_fourMore :
    (ConstraintBasedOrderValidator.validateOrder
        { constraints := .default
          roleConstraints := Sample.limitedRoles }
        (.ofTeam Sample.threeHeld "TAKER" "market_maker" Sample.buyFour
          0)).status = .rejected := by
  have answers := validateOrder_predicts Sample.limitedRoles
    Sample.threeHeld "TAKER" "market_maker" Sample.buyFour 0
    (by decide +kernel)
  refine (answers.rejected fun accepted => ?_).1
  have within := answers.accepted_iff.mp accepted
  have exceeded : ¬ AtMost
      |(Sample.threeHeld.afterOrder "TAKER"
        Sample.buyFour).getPositionForInstrument "TAKER" "CALL"|
      (some 6) := by
    decide +kernel
  exact exceeded
    ((within _ (List.mem_cons_of_mem _ List.mem_cons_self)).position rfl)

end InternTradingGame
