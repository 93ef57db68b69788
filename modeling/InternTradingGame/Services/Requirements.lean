import InternTradingGame.Services.LimitChecks
import InternTradingGame.Services.OrderValidation

/-!
# What the constraints require

A constraint is a requirement on an order, on the positions its team would
have if the whole order traded, and on the number of orders the team has sent
in the current second.  The checks of the validator decide these
requirements, so an order is accepted exactly when it meets those of the
team's role, and is rejected for the first one it does not meet.
-/

namespace InternTradingGame

/--
The order meets the constraint, stated by kind for the position service, the
role and the count of the team, without the checks of the source.
-/
def ConstraintConfig.Met (config : ConstraintConfig)
    (positions : PositionManagementService) (order : Order)
    (team : TeamInfo) (ordersThisSecond : ℕ) : Prop :=
  let parameters := config.parameters
  let traded := positions.afterOrder team.teamId order
  match config.constraintType with
  | .positionLimit =>
      AtMost
        |traded.getPositionForInstrument team.teamId order.instrumentId|
        parameters.maxPosition
  | .portfolioLimit =>
      AtMost (traded.getTotalAbsolutePosition team.teamId)
        parameters.maxTotalPosition
  | .orderSize =>
      parameters.minSize.getD 0 ≤ order.quantity ∧
        AtMost order.quantity parameters.maxSize
  | .orderRate =>
      ∀ maxOrders ∈ parameters.maxOrdersPerSecond,
        (ordersThisSecond : ℚ) < maxOrders
  | .orderTypeAllowed =>
      order.orderType.value ∈ parameters.allowedTypes.getD []
  | .instrumentAllowed =>
      order.instrumentId ∈ parameters.allowedInstruments.getD []
  | .priceRange =>
      ∀ price ∈ order.price,
        parameters.minPrice.getD 0 ≤ price ∧
          AtMost price parameters.maxPrice

section Checks

variable (context : ValidationContext) (config : ConstraintConfig)

theorem OrderSizeConstraint.isValid_iff :
    (OrderSizeConstraint.check context config).isValid = true ↔
      config.parameters.minSize.getD 0 ≤ context.order.quantity ∧
        AtMost context.order.quantity config.parameters.maxSize := by
  rw [OrderSizeConstraint.check]
  split_ifs with inside
  · exact iff_of_true rfl inside
  · exact iff_of_false not_false inside

theorem OrderRateConstraint.isValid_iff_forall :
    (OrderRateConstraint.check context config).isValid = true ↔
      ∀ maxOrders ∈ config.parameters.maxOrdersPerSecond,
        (context.ordersThisSecond : ℚ) < maxOrders := by
  rw [OrderRateConstraint.check]
  cases config.parameters.maxOrdersPerSecond with
  | none =>
      refine iff_of_true rfl ?_
      intro maxOrders member
      cases member
  | some maxOrders =>
      simp only [Option.mem_some_iff, forall_eq', decide_eq_true_eq]
      split_ifs with fewer
      · exact iff_of_true rfl fewer
      · exact iff_of_false not_false fewer

theorem OrderTypeConstraint.isValid_iff :
    (OrderTypeConstraint.check context config).isValid = true ↔
      context.order.orderType.value ∈
        config.parameters.allowedTypes.getD [] := by
  rw [OrderTypeConstraint.check]
  split_ifs with allowed
  · exact iff_of_true rfl allowed
  · exact iff_of_false not_false allowed

theorem InstrumentAllowedConstraint.isValid_iff :
    (InstrumentAllowedConstraint.check context config).isValid = true ↔
      context.order.instrumentId ∈
        config.parameters.allowedInstruments.getD [] := by
  rw [InstrumentAllowedConstraint.check]
  split_ifs with allowed
  · exact iff_of_true rfl allowed
  · exact iff_of_false not_false allowed

theorem PriceRangeConstraint.isValid_iff :
    (PriceRangeConstraint.check context config).isValid = true ↔
      ∀ price ∈ context.order.price,
        config.parameters.minPrice.getD 0 ≤ price ∧
          AtMost price config.parameters.maxPrice := by
  rw [PriceRangeConstraint.check]
  cases context.order.price with
  | none =>
      refine iff_of_true rfl ?_
      intro price member
      cases member
  | some price =>
      simp only [Option.mem_some_iff, forall_eq']
      split_ifs with inside
      · exact iff_of_true rfl inside
      · exact iff_of_false not_false inside

end Checks

section Satisfies

variable {validator : ConstraintBasedOrderValidator}
  (registry : validator.constraints = .default)
  (positions : PositionManagementService) (order : Order)
  (team : TeamInfo) (ordersThisSecond : ℕ)

include registry

/-- The default checks decide what the constraints require. -/
theorem ConstraintConfig.satisfies_iff_met (config : ConstraintConfig) :
    validator.Satisfies
        (.ofTeam positions team.teamId team.role order ordersThisSecond)
        config ↔
      config.Met positions order team ordersThisSecond := by
  have registered : ∀ check,
      ConstraintRegistry.default config.constraintType = some check →
        (validator.Satisfies
            (.ofTeam positions team.teamId team.role order
              ordersThisSecond) config ↔
          (check
            (.ofTeam positions team.teamId team.role order
              ordersThisSecond) config).isValid = true) := fun check found =>
    ConstraintBasedOrderValidator.satisfies_iff (registry ▸ found)
  have predicted : config.IsLimit → _ := fun isLimit =>
    isLimit.predicted positions team.teamId team.role order
      ordersThisSecond validator.roleConstraints
  have isDefault : validator =
      { constraints := .default
        roleConstraints := validator.roleConstraints } := by
    rw [← registry]
  rw [ConstraintConfig.Met]
  cases kind : config.constraintType with
  | positionLimit =>
      rw [isDefault, predicted (Or.inl kind)]
      constructor
      · exact fun within => within.position kind
      · intro bounded
        constructor
        · exact fun _ => bounded
        · intro other
          cases kind.symm.trans other
  | portfolioLimit =>
      rw [isDefault, predicted (Or.inr kind)]
      constructor
      · exact fun within => within.portfolio kind
      · intro bounded
        constructor
        · intro other
          cases kind.symm.trans other
        · exact fun _ => bounded
  | orderSize =>
      rw [registered _ (congrArg _ kind)]
      exact OrderSizeConstraint.isValid_iff _ config
  | orderRate =>
      rw [registered _ (congrArg _ kind)]
      exact OrderRateConstraint.isValid_iff_forall _ config
  | orderTypeAllowed =>
      rw [registered _ (congrArg _ kind)]
      exact OrderTypeConstraint.isValid_iff _ config
  | instrumentAllowed =>
      rw [registered _ (congrArg _ kind)]
      exact InstrumentAllowedConstraint.isValid_iff _ config
  | priceRange =>
      rw [registered _ (congrArg _ kind)]
      exact PriceRangeConstraint.isValid_iff _ config

end Satisfies

/-- A new order is answered for what the constraints of its role require. -/
theorem OrderValidationService.validateNewOrder_answersFor
    {service : OrderValidationService}
    (registry : service.validator.constraints = .default)
    (positions : PositionManagementService) (order : Order)
    (team : TeamInfo) (currentTime : ℚ) :
    AnswersFor
      (fun config =>
        config.Met positions order team
          (service.getOrderCount team.teamId currentTime))
      (service.validator.getConstraintsForRole team.role)
      (service.validateNewOrder positions order team currentTime) := by
  have answers := service.validator.validateOrder_answersFor
    (service.validationContext positions order team currentTime)
  apply answers.congr
  intro config _
  exact config.satisfies_iff_met registry positions order team _

end InternTradingGame
