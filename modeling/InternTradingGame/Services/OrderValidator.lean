import InternTradingGame.Positions.PositionService
import Mathlib.Algebra.Order.Group.Abs

/-!
# The constraints on new orders

A role has a list of constraints, and a new order is accepted if it meets all
of them.  Each kind of constraint is checked by a function of the order, of
the positions of its team and of the number of orders the team has sent in
the current second.  A parameter which is missing from a configuration has
the default of the source; the default of an upper bound is infinity.
-/

namespace InternTradingGame

/-! ## Configurations -/

/--
The kinds of constraints.  The value of a kind in a configuration picks the
check which is run.
-/
inductive ConstraintType where
  | positionLimit
  | portfolioLimit
  | orderSize
  | orderRate
  | orderTypeAllowed
  | instrumentAllowed
  | priceRange
deriving DecidableEq, Repr

/--
The parameters of a constraint, each of which may be missing.  A check reads
its own and ignores the others; a number keeps its exact value, as the
configuration wrote it.
-/
structure ConstraintParameters where
  maxPosition : Option ℚ := none
  symmetric : Option Bool := none
  maxTotalPosition : Option ℚ := none
  minSize : Option ℚ := none
  maxSize : Option ℚ := none
  maxOrdersPerSecond : Option ℚ := none
  allowedTypes : Option (List String) := none
  allowedInstruments : Option (List String) := none
  minPrice : Option ℚ := none
  maxPrice : Option ℚ := none

/--
A configured constraint: the kind of check, its parameters, and the code and
the text with which an order that breaks it is rejected.
-/
structure ConstraintConfig where
  constraintType : ConstraintType
  parameters : ConstraintParameters
  errorCode : String
  errorMessage : String

/--
The answer of one check: whether the order meets the constraint and, if not,
a text which says by how much it misses.
-/
structure ValidationResult where
  isValid : Bool
  errorDetail : Option String := none
deriving DecidableEq

/--
What a check may look at: the order, its team with its role, the positions
of the team and the number of orders it has sent in the current second.
Only settled positions are in it, not the orders which are still on their
way.
-/
structure ValidationContext where
  order : Order
  traderId : String
  traderRole : String
  currentPositions : TeamPositions
  ordersThisSecond : ℕ

/-! ## Upper bounds which may be infinite -/

/--
`value <= bound`, where a missing bound is the default `float("inf")`, which
every value is below.
-/
def AtMost (value : ℚ) : Option ℚ → Prop
  | none => True
  | some bound => value ≤ bound

instance (value : ℚ) (bound : Option ℚ) :
    Decidable (AtMost value bound) := by
  rcases bound
  case none => exact inferInstanceAs (Decidable True)
  case some limit => exact inferInstanceAs (Decidable (value ≤ limit))

/-- A bound as an f-string prints it; the default is printed as `inf`. -/
def formatBound : Option ℚ → String
  | none => "inf"
  | some bound => formatNumber bound

/-! ## The checks -/

/--
The change of the position when the whole order trades: a purchase adds its
quantity and a sale takes it away.
-/
def Order.signedQuantity (order : Order) : ℚ :=
  match order.side with
  | .buy => order.quantity
  | .sell => -order.quantity

/--
The position of the team in the instrument of the order, zero if it never
had one.
-/
def ValidationContext.current (context : ValidationContext) : ℚ :=
  (context.currentPositions.get? context.order.instrumentId).getD 0

/--
The position the whole order would lead to is bounded.  The two branches are
those of the source: a symmetric limit bounds the position from both sides,
and otherwise its absolute value is bounded, which comes to the same but for
the text.
-/
def PositionLimitConstraint.check (context : ValidationContext)
    (config : ConstraintConfig) : ValidationResult :=
  let maxPosition := config.parameters.maxPosition
  let newPosition := context.current + context.order.signedQuantity
  if config.parameters.symmetric.getD false then
    if AtMost (-newPosition) maxPosition ∧
        AtMost newPosition maxPosition then
      { isValid := true }
    else
      { isValid := false
        errorDetail :=
          some ("Position " ++ formatNumber newPosition ++ " outside ±" ++
            formatBound maxPosition) }
  else
    if AtMost |newPosition| maxPosition then
      { isValid := true }
    else
      { isValid := false
        errorDetail :=
          some ("Position " ++ formatNumber |newPosition| ++ " exceeds " ++
            formatBound maxPosition) }

/--
The sum of the absolute positions over all instruments is bounded, with the
position in the instrument of the order replaced by the one the whole order
would lead to.
-/
def PortfolioLimitConstraint.check (context : ValidationContext)
    (config : ConstraintConfig) : ValidationResult :=
  let currentTotal :=
    (context.currentPositions.values.map fun position => |position|).sum
  let newInstrumentPosition :=
    |context.current + context.order.signedQuantity|
  let newTotal :=
    currentTotal - |context.current| + newInstrumentPosition
  if AtMost newTotal config.parameters.maxTotalPosition then
    { isValid := true }
  else
    { isValid := false
      errorDetail :=
        some ("Total position " ++ formatNumber newTotal ++
          " would exceed " ++
          formatBound config.parameters.maxTotalPosition) }

/--
The quantity of the order lies between the two sizes, both included; the
lower one is zero if it is not configured.
-/
def OrderSizeConstraint.check (context : ValidationContext)
    (config : ConstraintConfig) : ValidationResult :=
  let minSize := config.parameters.minSize.getD 0
  if minSize ≤ context.order.quantity ∧
      AtMost context.order.quantity config.parameters.maxSize then
    { isValid := true }
  else
    { isValid := false
      errorDetail :=
        some ("Order size " ++ formatNumber context.order.quantity ++
          " not in [" ++ formatNumber minSize ++ ", " ++
          formatBound config.parameters.maxSize ++ "]") }

/--
Fewer orders than the limit have been counted in the current second.  The
order under validation is not among them.
-/
def OrderRateConstraint.check (context : ValidationContext)
    (config : ConstraintConfig) : ValidationResult :=
  let accepted :=
    match config.parameters.maxOrdersPerSecond with
    | none => true
    | some maxOrders => (context.ordersThisSecond : ℚ) < maxOrders
  if accepted then
    { isValid := true }
  else
    { isValid := false
      errorDetail :=
        some ("Already submitted " ++
          toString context.ordersThisSecond ++ " orders this second") }

/--
The value of an order type, in lower case as in the API and in the lists of
a configuration.
-/
def OrderType.value : OrderType → String
  | .limit => "limit"
  | .market => "market"

/--
The type of the order is listed.  The default is the empty list, so a
constraint without types rejects every order.
-/
def OrderTypeConstraint.check (context : ValidationContext)
    (config : ConstraintConfig) : ValidationResult :=
  let allowedTypes := config.parameters.allowedTypes.getD []
  if context.order.orderType.value ∈ allowedTypes then
    { isValid := true }
  else
    { isValid := false
      errorDetail :=
        some ("Order type " ++ context.order.orderType.value ++
          " not in " ++ formatList allowedTypes) }

/--
The instrument of the order is listed.  The default is the empty list, so a
constraint without instruments rejects every order.
-/
def InstrumentAllowedConstraint.check (context : ValidationContext)
    (config : ConstraintConfig) : ValidationResult :=
  let allowedInstruments :=
    config.parameters.allowedInstruments.getD []
  if context.order.instrumentId ∈ allowedInstruments then
    { isValid := true }
  else
    { isValid := false
      errorDetail :=
        some ("Instrument " ++ context.order.instrumentId ++
          " not in allowed list: " ++ formatList allowedInstruments) }

/--
The price of a limit order lies between the two prices, both included; a
market order has no price and passes.
-/
def PriceRangeConstraint.check (context : ValidationContext)
    (config : ConstraintConfig) : ValidationResult :=
  match context.order.price with
  | none => { isValid := true }
  | some price =>
      let minPrice := config.parameters.minPrice.getD 0
      if minPrice ≤ price ∧ AtMost price config.parameters.maxPrice then
        { isValid := true }
      else
        { isValid := false
          errorDetail :=
            some ("Price " ++ formatFloat price ++ " not in [" ++
              formatNumber minPrice ++ ", " ++
              formatBound config.parameters.maxPrice ++ "]") }

/-! ## The validator -/

/--
The check of each kind of constraint, if it has one.  A constraint whose
kind has no check is skipped.
-/
abbrev ConstraintRegistry :=
  ConstraintType →
    Option (ValidationContext → ConstraintConfig → ValidationResult)

/-- The default registry, with a check for each kind. -/
def ConstraintRegistry.default : ConstraintRegistry
  | .positionLimit => some PositionLimitConstraint.check
  | .portfolioLimit => some PortfolioLimitConstraint.check
  | .orderSize => some OrderSizeConstraint.check
  | .orderRate => some OrderRateConstraint.check
  | .orderTypeAllowed => some OrderTypeConstraint.check
  | .instrumentAllowed => some InstrumentAllowedConstraint.check
  | .priceRange => some PriceRangeConstraint.check

/--
The validator: the checks it knows and the constraints of each role, in the
order in which they are configured.
-/
structure ConstraintBasedOrderValidator where
  constraints : ConstraintRegistry
  roleConstraints : OrderedDict String (List ConstraintConfig)

/-! ## The first constraint that is broken -/

/--
The constraint is broken, and those configured before it are kept, so it is
the one a rejection names.
-/
structure FirstBroken (kept : ConstraintConfig → Prop)
    (configs : List ConstraintConfig) (config : ConstraintConfig) :
    Prop where
  first : ∃ before rest, configs = before ++ config :: rest ∧
    ∀ earlier ∈ before, kept earlier
  broken : ¬ kept config

section FirstBroken

variable {kept other : ConstraintConfig → Prop}
  {configs : List ConstraintConfig} {config earlier : ConstraintConfig}

theorem FirstBroken.member (first : FirstBroken kept configs config) :
    config ∈ configs := by
  rcases first.first with ⟨before, rest, rfl, _⟩
  exact List.mem_append_right before List.mem_cons_self

theorem FirstBroken.head (configs : List ConstraintConfig)
    (broken : ¬ kept config) :
    FirstBroken kept (config :: configs) config := by
  refine ⟨⟨[], configs, rfl, ?_⟩, broken⟩
  intro earlier member
  cases member

theorem FirstBroken.cons (first : FirstBroken kept configs config)
    (keeps : kept earlier) :
    FirstBroken kept (earlier :: configs) config := by
  rcases first with ⟨⟨before, rest, rfl, keepsBefore⟩, broken⟩
  refine ⟨⟨earlier :: before, rest, rfl, ?_⟩, broken⟩
  intro other member
  rcases List.mem_cons.mp member with rfl | later
  · exact keeps
  · exact keepsBefore other later

theorem FirstBroken.congr (first : FirstBroken kept configs config)
    (same : ∀ config ∈ configs, kept config ↔ other config) :
    FirstBroken other configs config := by
  have listed := first.member
  rcases first with ⟨⟨before, rest, rfl, keeps⟩, broken⟩
  refine ⟨⟨before, rest, rfl, ?_⟩, fun keeps =>
    broken ((same config listed).mpr keeps)⟩
  intro earlier member
  exact (same earlier (List.mem_append_left _ member)).mp
    (keeps earlier member)

/--
The answer accepts the order if every constraint is kept, and otherwise
rejects it with the code of the first one that is broken.
-/
structure AnswersFor (kept : ConstraintConfig → Prop)
    (configs : List ConstraintConfig) (answer : OrderResult) : Prop where
  accepted_iff : answer.status = .accepted ↔ ∀ config ∈ configs, kept config
  rejected : answer.status ≠ .accepted →
    answer.status = .rejected ∧
      ∃ config, FirstBroken kept configs config ∧
        answer.errorCode = some config.errorCode

theorem AnswersFor.congr {answer : OrderResult}
    (answers : AnswersFor kept configs answer)
    (same : ∀ config ∈ configs, kept config ↔ other config) :
    AnswersFor other configs answer := by
  constructor
  · rw [answers.accepted_iff]
    exact forall₂_congr same
  · intro refused
    rcases answers.rejected refused with ⟨status, config, first, code⟩
    exact ⟨status, config, first.congr same, code⟩

theorem AnswersFor.cons {answer : OrderResult}
    (answers : AnswersFor kept configs answer) (keeps : kept config) :
    AnswersFor kept (config :: configs) answer := by
  constructor
  · rw [answers.accepted_iff, List.forall_mem_cons]
    exact (and_iff_right keeps).symm
  · intro refused
    rcases answers.rejected refused with ⟨status, other, first, code⟩
    exact ⟨status, other, first.cons keeps, code⟩

end FirstBroken

namespace ConstraintBasedOrderValidator

/--
`_get_constraints_for_role`: a role for which nothing was loaded has no
constraints, so its orders are all accepted.
-/
def getConstraintsForRole (validator : ConstraintBasedOrderValidator)
    (role : String) : List ConstraintConfig :=
  (validator.roleConstraints.get? role).getD []

/--
`load_constraints`: the constraints of the role are replaced, not added to.
-/
def loadConstraints (validator : ConstraintBasedOrderValidator)
    (role : String) (constraints : List ConstraintConfig) :
    ConstraintBasedOrderValidator :=
  { validator with
    roleConstraints := validator.roleConstraints.set role constraints }

/--
The answer to an order which violates a constraint: the code of the
constraint, and its message followed by the text of the check, if the check
left one.
-/
def rejection (order : Order) (config : ConstraintConfig)
    (result : ValidationResult) : OrderResult where
  orderId := order.orderId
  status := .rejected
  fills := []
  remainingQuantity := 0
  errorCode := some config.errorCode
  errorMessage :=
    some
      (match result.errorDetail with
      | none => config.errorMessage
      | some detail =>
          if detail = "" then
            config.errorMessage
          else
            config.errorMessage ++ ": " ++ detail)

/--
The answer to an order which meets all constraints.  Nothing has traded, so
its whole quantity remains.
-/
def acceptance (order : Order) : OrderResult where
  orderId := order.orderId
  status := .accepted
  fills := []
  remainingQuantity := order.quantity
  errorCode := none
  errorMessage := none

/--
The loop of `validate_order`: the first violated constraint decides, and
constraints whose kind has no check are skipped.
-/
def applyConstraints (validator : ConstraintBasedOrderValidator)
    (context : ValidationContext) : List ConstraintConfig → OrderResult
  | [] => acceptance context.order
  | config :: configs =>
      match validator.constraints config.constraintType with
      | none => applyConstraints validator context configs
      | some check =>
          let result := check context config
          if result.isValid then
            applyConstraints validator context configs
          else
            rejection context.order config result

/--
`validate_order`: the constraints of the team's role are applied in the
order of the configuration.
-/
def validateOrder (validator : ConstraintBasedOrderValidator)
    (context : ValidationContext) : OrderResult :=
  validator.applyConstraints context
    (validator.getConstraintsForRole context.traderRole)

/--
The check of the constraint passes, or there is none: what a constraint of
this kind asks of the order in this validator.
-/
def Satisfies (validator : ConstraintBasedOrderValidator)
    (context : ValidationContext) (config : ConstraintConfig) : Prop :=
  ∀ check, validator.constraints config.constraintType = some check →
    (check context config).isValid = true

theorem satisfies_iff {validator : ConstraintBasedOrderValidator}
    {context : ValidationContext} {config : ConstraintConfig}
    {check : ValidationContext → ConstraintConfig → ValidationResult}
    (registered :
      validator.constraints config.constraintType = some check) :
    validator.Satisfies context config ↔
      (check context config).isValid = true := by
  constructor
  · exact fun satisfies => satisfies check registered
  · intro valid other found
    rcases Option.some.inj (registered.symm.trans found) with rfl
    exact valid

section Validate

variable (validator : ConstraintBasedOrderValidator)
  (context : ValidationContext)

/-- The answer is that of the first constraint which is broken. -/
theorem applyConstraints_answersFor (configs : List ConstraintConfig) :
    AnswersFor (validator.Satisfies context) configs
      (validator.applyConstraints context configs) := by
  induction configs with
  | nil =>
      constructor
      · refine iff_of_true rfl ?_
        intro config member
        cases member
      · exact fun refused => absurd rfl refused
  | cons config configs induction =>
      rw [applyConstraints]
      cases registered : validator.constraints config.constraintType with
      | none =>
          apply induction.cons
          intro check found
          cases registered.symm.trans found
      | some check =>
          by_cases valid : (check context config).isValid = true
          · simp only [valid, if_true]
            exact induction.cons ((satisfies_iff registered).mpr valid)
          · have breaks : ¬ validator.Satisfies context config := fun keeps =>
              valid ((satisfies_iff registered).mp keeps)
            simp only [valid]
            constructor
            · refine iff_of_false nofun ?_
              exact fun all => breaks (all config List.mem_cons_self)
            · intro _
              exact ⟨rfl, config, FirstBroken.head configs breaks, rfl⟩

theorem validateOrder_answersFor :
    AnswersFor (validator.Satisfies context)
      (validator.getConstraintsForRole context.traderRole)
      (validator.validateOrder context) :=
  validator.applyConstraints_answersFor context _

/-- An accepted order meets every constraint which has a check. -/
theorem validateOrder_accepted
    (accepted : (validator.validateOrder context).status = .accepted)
    {config : ConstraintConfig}
    (member :
      config ∈ validator.getConstraintsForRole context.traderRole)
    {check : ValidationContext → ConstraintConfig → ValidationResult}
    (registered :
      validator.constraints config.constraintType = some check) :
    (check context config).isValid = true :=
  (validator.validateOrder_answersFor context).accepted_iff.mp accepted
    config member check registered

end Validate

end ConstraintBasedOrderValidator

/-- A position limit bounds the position an accepted order leads to. -/
theorem PositionLimitConstraint.bounded {context : ValidationContext}
    {config : ConstraintConfig} {limit : ℚ}
    (limited : config.parameters.maxPosition = some limit)
    (valid :
      (PositionLimitConstraint.check context config).isValid = true) :
    |context.current + context.order.signedQuantity| ≤ limit := by
  simp only [PositionLimitConstraint.check, limited] at valid
  by_cases symmetric : config.parameters.symmetric.getD false = true
  · rw [if_pos symmetric] at valid
    by_cases inside :
        AtMost (-(context.current + context.order.signedQuantity))
            (some limit) ∧
          AtMost (context.current + context.order.signedQuantity)
            (some limit)
    · rcases inside with ⟨below, above⟩
      exact abs_le.mpr ⟨neg_le.mp below, above⟩
    · rw [if_neg inside] at valid
      cases valid
  · rw [if_neg symmetric] at valid
    by_cases inside :
        AtMost |context.current + context.order.signedQuantity|
          (some limit)
    · exact inside
    · rw [if_neg inside] at valid
      cases valid

end InternTradingGame
