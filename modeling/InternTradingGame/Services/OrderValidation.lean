import InternTradingGame.Exchange.Venue
import InternTradingGame.Positions.Settlement
import InternTradingGame.Services.OrderValidator

/-!
# The order validation service

The service validates new orders against the positions the position service
reports, counts the accepted orders of each team in windows of one second,
and passes cancels on to the exchange.  The time is an argument.
-/

namespace InternTradingGame

open Effects

/--
The second in which a team's latest orders were counted: its number of
accepted orders and the time at which the first of them was counted.
-/
structure RateLimitWindow where
  count : ℕ
  windowStart : ℚ

/--
`is_current_window`: both times lie in the same second of the clock, so a
window ends with its second and not one second after it began.
-/
def RateLimitWindow.isCurrentWindow (window : RateLimitWindow)
    (currentTime : ℚ) : Bool :=
  truncate currentTime = truncate window.windowStart

/--
The state of the service: the validator and a rate window for each team.
The exchange and the positions are shared with other threads and are
arguments of the calls.
-/
structure OrderValidationService where
  validator : ConstraintBasedOrderValidator
  rateLimitWindows : OrderedDict String RateLimitWindow

namespace OrderValidationService

/--
`get_order_count`: the accepted orders of the team in the current second,
and zero once its window belongs to an earlier one.
-/
def getOrderCount (service : OrderValidationService) (teamId : String)
    (currentTime : ℚ) : ℕ :=
  match service.rateLimitWindows.get? teamId with
  | none => 0
  | some window =>
      if window.isCurrentWindow currentTime then window.count else 0

/--
`increment_order_count`: the order is counted in the window of the current
second, or opens a new window.
-/
def incrementOrderCount (service : OrderValidationService)
    (teamId : String) (currentTime : ℚ) : OrderValidationService :=
  let fresh : RateLimitWindow := { count := 1, windowStart := currentTime }
  let window :=
    match service.rateLimitWindows.get? teamId with
    | none => fresh
    | some window =>
        if window.isCurrentWindow currentTime then
          { window with count := window.count + 1 }
        else
          fresh
  { service with
    rateLimitWindows := service.rateLimitWindows.set teamId window }

/--
The state a new order is validated against, read from the position service
and the rate windows when the order is validated.
-/
def validationContext (service : OrderValidationService)
    (positions : PositionManagementService) (order : Order)
    (team : TeamInfo) (currentTime : ℚ) : ValidationContext where
  order := order
  traderId := team.teamId
  traderRole := team.role
  currentPositions := positions.getPositions team.teamId
  ordersThisSecond := service.getOrderCount team.teamId currentTime

/--
`validate_new_order`: the service gathers the context of the order and
leaves the decision to the validator.
-/
def validateNewOrder (service : OrderValidationService)
    (positions : PositionManagementService) (order : Order)
    (team : TeamInfo) (currentTime : ℚ) : OrderResult :=
  service.validator.validateOrder
    (service.validationContext positions order team currentTime)

/-- The message for a cancel which does not succeed, whatever its reason. -/
def orderNotFound : String :=
  "Order not found"

/--
`validate_cancellation`: the exchange cancels the order, and a trader who
does not own it gets the same answer as one whose order is not found.
-/
def validateCancellation (orderId teamId : String) :
    VenueM (Bool × Option String) :=
  fun venue =>
    match ExchangeVenue.cancelOrder orderId teamId venue with
    | .ok true next => .ok (true, none) next
    | .ok false next => .ok (false, some orderNotFound) next
    | .error (.valueError _) next => .ok (false, some orderNotFound) next
    | .error exception next => .error exception next

/-- An accepted order respects the position limit of the team's role. -/
theorem validateNewOrder_bounded {service : OrderValidationService}
    {positions : PositionManagementService} {order : Order}
    {team : TeamInfo} {currentTime limit : ℚ}
    (registry :
      service.validator.constraints .positionLimit =
        some PositionLimitConstraint.check)
    {config : ConstraintConfig}
    (configured :
      config ∈ service.validator.getConstraintsForRole team.role)
    (kind : config.constraintType = .positionLimit)
    (limited : config.parameters.maxPosition = some limit)
    (accepted :
      (service.validateNewOrder positions order team
        currentTime).status = .accepted) :
    |positions.getPositionForInstrument team.teamId order.instrumentId +
        order.signedQuantity| ≤ limit := by
  have valid :=
    ConstraintBasedOrderValidator.validateOrder_accepted _ _ accepted
      configured (kind ▸ registry)
  have bounded := PositionLimitConstraint.bounded limited valid
  rw [PositionManagementService.getPositionForInstrument_eq]
  exact bounded

end OrderValidationService

end InternTradingGame
