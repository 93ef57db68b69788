import InternTradingGame.Pipeline.Settling

/-!
# Position limits and unsettled orders

The validator checks a new order against the settled position of its team.
What the team has had accepted and what is not settled yet is not looked at:
the orders on their way to the matching thread, the live orders, and the
updates still to come.

The exposure of a team on a side is its position there together with all that
is unsettled.  No step raises it but the one which accepts an order, where
each call of the exchange is one step.
-/

namespace InternTradingGame

open Effects

/-! ## What updates may add on one side -/

/-- What an update adds to a position on one side, if it adds anything. -/
def PositionUpdate.gainOn (update : PositionUpdate) (side : OrderSide)
    (teamId instrumentId : String) : ℚ :=
  max 0 (side.signed (update.deltaOn teamId instrumentId))

/-- What some updates add to a position on one side. -/
def gainedOn (side : OrderSide) (teamId instrumentId : String)
    (updates : List PositionUpdate) : ℚ :=
  (updates.map fun update =>
    update.gainOn side teamId instrumentId).sum

section Gains

variable (side : OrderSide) (teamId instrumentId : String)

theorem gainedOn_append (first second : List PositionUpdate) :
    gainedOn side teamId instrumentId (first ++ second) =
      gainedOn side teamId instrumentId first +
        gainedOn side teamId instrumentId second := by
  rw [gainedOn, List.map_append, List.sum_append]
  rfl

theorem gainedOn_cons (update : PositionUpdate)
    (rest : List PositionUpdate) :
    gainedOn side teamId instrumentId (update :: rest) =
      update.gainOn side teamId instrumentId +
        gainedOn side teamId instrumentId rest := by
  rw [gainedOn, List.map_cons, List.sum_cons]
  rfl

theorem gainedOn_nonneg (updates : List PositionUpdate) :
    0 ≤ gainedOn side teamId instrumentId updates := by
  apply List.sum_nonneg
  intro quantity member
  rcases List.mem_map.mp member with ⟨update, _, rfl⟩
  exact le_max_left _ _

/-- A fill adds to a position what its team has traded on the side. -/
theorem gainedOn_fillUpdates {order : Order} {team : TeamInfo}
    {fill : Trade} (own : team.teamId = order.traderId)
    (isFill : AggressorFill order fill) :
    gainedOn side teamId instrumentId (fillUpdates order team fill) ≤
      fill.quantityOn side teamId instrumentId := by
  have nonnegative := fun side : OrderSide =>
    fill.quantityOn_nonneg side teamId instrumentId
  have ownGain : PositionUpdate.gainOn
        ⟨order.traderId, order.instrumentId,
          order.side.signed fill.quantity⟩ side teamId instrumentId =
      max 0 (side.signed (order.side.signed 1 *
        fill.quantityOn order.side teamId instrumentId)) := by
    rw [PositionUpdate.gainOn, OrderSide.signed_eq_mul order.side,
      deltaOn_eq isFill _ isFill.teamOn]
  have otherGain : PositionUpdate.gainOn
        ⟨counterpartyId order fill, order.instrumentId,
          -order.side.signed fill.quantity⟩ side teamId instrumentId =
      max 0 (side.signed (-order.side.signed 1 *
        fill.quantityOn order.side.opposite teamId instrumentId)) := by
    rw [PositionUpdate.gainOn, OrderSide.signed_eq_mul order.side,
      ← neg_mul, deltaOn_eq isFill _ (teamOn_opposite order fill)]
  have both : gainedOn side teamId instrumentId
        (fillUpdates order team fill) ≤
      max 0 (side.signed (order.side.signed 1 *
          fill.quantityOn order.side teamId instrumentId)) +
        max 0 (side.signed (-order.side.signed 1 *
          fill.quantityOn order.side.opposite teamId instrumentId)) := by
    rw [fillUpdates_eq, own, gainedOn_cons, ownGain]
    apply add_le_add_right
    split_ifs
    · exact le_max_left _ _
    · rw [gainedOn_cons, otherGain]
      exact (add_zero _).le
  refine both.trans ?_
  cases order.side with
  | buy =>
      cases side with
      | buy => simp [OrderSide.signed, OrderSide.opposite, nonnegative]
      | sell => simp [OrderSide.signed, OrderSide.opposite, nonnegative]
  | sell =>
      cases side with
      | buy => simp [OrderSide.signed, OrderSide.opposite, nonnegative]
      | sell => simp [OrderSide.signed, OrderSide.opposite, nonnegative]

theorem gainedOn_fills {order : Order} {team : TeamInfo}
    (own : team.teamId = order.traderId) {fills : List Trade}
    (areFills : ∀ fill ∈ fills, AggressorFill order fill) :
    gainedOn side teamId instrumentId
        (fills.flatMap (fillUpdates order team)) ≤
      tradedOn side teamId instrumentId fills := by
  induction fills with
  | nil => exact le_rfl
  | cons fill rest induction =>
      have tail := induction fun other member =>
        areFills other (List.mem_cons_of_mem _ member)
      have head := gainedOn_fillUpdates side teamId instrumentId own
        (areFills fill List.mem_cons_self)
      rw [List.flatMap_cons, gainedOn_append, tradedOn_cons]
      exact add_le_add head tail

end Gains

/-! ## What is not settled yet -/

/-- The accepted order the validator thread has still to forward. -/
def ValidatorState.approved : ValidatorState → List (Order × TeamInfo)
  | forwarding order team _ => [(order, team)]
  | _ => []

/-- The quantity of some orders on one side. -/
def quantityOn (side : OrderSide) (teamId instrumentId : String)
    (submissions : List (Order × TeamInfo)) : ℚ :=
  (submissions.map fun submission =>
    submission.1.quantityOn side teamId instrumentId).sum

theorem quantityOn_append (side : OrderSide)
    (teamId instrumentId : String)
    (first second : List (Order × TeamInfo)) :
    quantityOn side teamId instrumentId (first ++ second) =
      quantityOn side teamId instrumentId first +
        quantityOn side teamId instrumentId second := by
  rw [quantityOn, List.map_append, List.sum_append]
  rfl

theorem quantityOn_nonneg (side : OrderSide)
    (teamId instrumentId : String)
    (submissions : List (Order × TeamInfo)) :
    0 ≤ quantityOn side teamId instrumentId submissions := by
  apply List.sum_nonneg
  intro quantity member
  rcases List.mem_map.mp member with ⟨submission, _, rfl⟩
  exact submission.1.quantityOn_nonneg side teamId instrumentId

namespace Pipeline

variable (state : Pipeline) (side : OrderSide)
  (teamId instrumentId : String)

/-- The accepted orders which have not been submitted yet. -/
def approved : List (Order × TeamInfo) :=
  state.matcher.submissions ++ state.matchQueue ++
    state.validator.approved

/-- What may still be added to a position without a further order. -/
def unsettled : ℚ :=
  gainedOn side teamId instrumentId state.pendingUpdates +
      state.venue.openQuantity side teamId instrumentId +
    quantityOn side teamId instrumentId state.approved

/-- The position on one side with all that is unsettled. -/
def exposure : ℚ :=
  side.signed
      (state.positions.getPositionForInstrument teamId instrumentId) +
    state.unsettled side teamId instrumentId

variable {state}

theorem unsettled_nonneg (sound : PipelineSound state) :
    0 ≤ state.unsettled side teamId instrumentId := by
  have gained :=
    gainedOn_nonneg side teamId instrumentId state.pendingUpdates
  have live :=
    ExchangeVenue.openQuantity_nonneg side teamId instrumentId sound.venue
  have approved :=
    quantityOn_nonneg side teamId instrumentId state.approved
  exact add_nonneg (add_nonneg gained live) approved

end Pipeline

/-! ## What a step does to the exposure -/

/--
A step passes the accepted orders on, or it is the one which accepts another
order.
-/
inductive ApprovalMove (state next : Pipeline) (call : PipelineCall) :
    Prop where
  | passes
      (approved :
        call.submitting state ++ next.approved = state.approved)
  | approves (order : Order) (team : TeamInfo) (requestId : String)
      (currentTime : ℚ)
      (now : call = .validate currentTime)
      (validator :
        state.validator = .received (.newOrder order team requestId))
      (accepted :
        (state.validation.validateNewOrder state.positions order team
          currentTime).status = .accepted)
      (approved : next.approved = state.approved ++ [(order, team)])

theorem afterCancellation_approved (orderId requestId : String)
    (answer : Except PyError (Bool × Option String)) :
    (afterCancellation orderId requestId answer).approved = [] := by
  rcases afterCancellation_replies orderId requestId answer with
    ⟨response, replies, _⟩
  rw [replies]
  rfl

theorem afterValidation_approved (order : Order) (team : TeamInfo)
    (requestId : String) (result : OrderResult) :
    (afterValidation order team requestId result).approved =
      if result.status = .accepted then [(order, team)] else [] := by
  rcases afterValidation_cases order team requestId result with
    ⟨accepted, forwards⟩ | ⟨refused, response, replies, _⟩
  · rw [forwards, if_pos accepted]
    rfl
  · rw [replies, if_neg refused]
    rfl

section Step

variable {state next : Pipeline} {call : PipelineCall}

theorem PipelineMove.approval (move : PipelineMove state call next) :
    ApprovalMove state next call := by
  cases move with
  | stays _ actions _ =>
      have none : call.submitting state = [] := by
        rw [← List.map_eq_nil_iff, ← call.orders_actions, actions]
        rfl
      exact .passes (by rw [none]; rfl)
  | takes validator queued =>
      exact .passes (by
        simp [Pipeline.approved, validator, PipelineCall.submitting,
          ValidatorState.approved])
  | @validates order team requestId currentTime validator =>
      have none : state.validator.approved = [] := by
        rw [validator]
        rfl
      by_cases accepted :
          (state.validation.validateNewOrder state.positions order team
            currentTime).status = .accepted
      · refine .approves order team requestId currentTime rfl validator
          accepted ?_
        simp [Pipeline.approved, none, afterValidation_approved, accepted]
      · exact .passes (by
          simp [Pipeline.approved, none, afterValidation_approved,
            accepted, PipelineCall.submitting])
  | forwards validator =>
      exact .passes (by
        simp [Pipeline.approved, validator, PipelineCall.submitting,
          ValidatorState.approved])
  | counts currentTime validator =>
      exact .passes (by
        simp [Pipeline.approved, validator, PipelineCall.submitting,
          ValidatorState.approved])
  | cancels answer validator _ =>
      have none : state.validator.approved = [] := by
        rw [validator]
        rfl
      exact .passes (by
        simp [Pipeline.approved, none, PipelineCall.submitting,
          afterCancellation_approved])
  | replies validator =>
      exact .passes (by
        simp [Pipeline.approved, validator, PipelineCall.submitting,
          ValidatorState.approved])
  | matcherTakes matcher queued =>
      exact .passes (by
        simp [Pipeline.approved, matcher, queued, PipelineCall.submitting,
          MatcherState.submissions])
  | submits matcher _ =>
      exact .passes (by
        simp [Pipeline.approved, matcher, PipelineCall.submitting,
          MatcherState.submissions])
  | submitFails matcher _ =>
      exact .passes (by
        simp [Pipeline.approved, matcher, PipelineCall.submitting,
          MatcherState.submissions])
  | publishes matcher =>
      exact .passes (by
        simp [Pipeline.approved, matcher, PipelineCall.submitting,
          MatcherState.submissions])
  | checkFails matcher _ =>
      exact .passes (by
        simp [Pipeline.approved, matcher, PipelineCall.submitting,
          MatcherState.submissions])
  | _ => exact .passes rfl

theorem PipelineCall.submittedOn_venueCalls (call : PipelineCall)
    (state : Pipeline) (side : OrderSide)
    (teamId instrumentId : String) :
    submittedOn side teamId instrumentId (call.venueCalls state) =
      quantityOn side teamId instrumentId (call.submitting state) := by
  cases call with
  | listInstrument instrument => exact add_zero 0
  | cancel =>
      rw [submittedOn, venueCalls, List.map_map]
      exact List.sum_eq_zero (by
        intro quantity member
        rcases List.mem_map.mp member with ⟨cancelled, _, rfl⟩
        rfl)
  | submit =>
      rw [submittedOn, venueCalls, List.map_map]
      rfl
  | checkPhases observed draw =>
      rw [submittedOn, venueCalls]
      split
      · exact add_zero 0
      · rfl
  | _ => rfl

/-- A fill may only add to a position what has been traded. -/
theorem PipelineSound.settling (sound : PipelineSound state)
    (move : PipelineMove state call next) (side : OrderSide)
    (teamId instrumentId : String) :
    side.signed
          (next.positions.getPositionForInstrument teamId instrumentId) +
        gainedOn side teamId instrumentId next.pendingUpdates +
      tradedOn side teamId instrumentId
        state.venue.market.heap.trades ≤
    side.signed
          (state.positions.getPositionForInstrument teamId instrumentId) +
        gainedOn side teamId instrumentId state.pendingUpdates +
      tradedOn side teamId instrumentId
        next.venue.market.heap.trades := by
  cases sound.tradeMove move with
  | quiet trades positions pending =>
      rw [trades, positions, pending]
  | updated update trades positions pending =>
      have gain : side.signed (update.deltaOn teamId instrumentId) ≤
          update.gainOn side teamId instrumentId :=
        le_max_right _ _
      rw [trades, positions, pending, gainedOn_cons,
        PositionUpdate.apply,
        PositionManagementService.getPositionForInstrument_updatePosition,
        OrderSide.signed_add]
      rw [PositionUpdate.deltaOn] at gain
      linarith
  | filled data own trades positions pending =>
      have gained := gainedOn_fills side teamId instrumentId own.team
        own.fills
      rw [trades, positions, pending, gainedOn_append, tradedOn_append]
      show _ + (_ + gainedOn _ _ _ (data.result.fills.flatMap _)) + _ ≤ _
      linarith
  | opened observed draw now matcher last opening made positions
      pending =>
      rcases made with ⟨trades, recorded, _⟩
      have traded := tradedOn_nonneg side teamId instrumentId trades
      rw [recorded, positions, pending, tradedOn_append]
      linarith

/-- The exposure only changes with what is accepted. -/
theorem PipelineSound.exposure_move (sound : PipelineSound state)
    (move : PipelineMove state call next) (side : OrderSide)
    (teamId instrumentId : String) :
    next.exposure side teamId instrumentId +
        quantityOn side teamId instrumentId state.approved ≤
      state.exposure side teamId instrumentId +
        quantityOn side teamId instrumentId
          (call.submitting state ++ next.approved) := by
  have settling := sound.settling move side teamId instrumentId
  have trading := openQuantity_run side teamId instrumentId sound.venue
    (sound.venueRun move) (sound.whole call)
  rw [call.submittedOn_venueCalls] at trading
  rw [quantityOn_append, Pipeline.exposure, Pipeline.exposure,
    Pipeline.unsettled, Pipeline.unsettled]
  linarith

/-- Only a step which accepts an order raises the exposure. -/
theorem PipelineSound.exposure_step (sound : PipelineSound state)
    (move : PipelineMove state call next) (side : OrderSide)
    (teamId instrumentId : String) :
    next.exposure side teamId instrumentId ≤
        state.exposure side teamId instrumentId ∨
      ∃ order team requestId currentTime,
        call = .validate currentTime ∧
        state.validator = .received (.newOrder order team requestId) ∧
        (state.validation.validateNewOrder state.positions order team
          currentTime).status = .accepted ∧
        next.exposure side teamId instrumentId ≤
          state.exposure side teamId instrumentId +
            order.quantityOn side teamId instrumentId := by
  have moved := sound.exposure_move move side teamId instrumentId
  cases move.approval with
  | passes approved =>
      left
      rw [approved] at moved
      linarith
  | approves order team requestId currentTime now validator accepted
      approved =>
      right
      subst now
      refine ⟨order, team, requestId, currentTime, rfl, validator,
        accepted, ?_⟩
      have one : quantityOn side teamId instrumentId [(order, team)] =
          order.quantityOn side teamId instrumentId :=
        add_zero _
      have none :
          (PipelineCall.validate currentTime).submitting state = [] :=
        rfl
      rw [none, List.nil_append, approved, quantityOn_append, one] at moved
      linarith

end Step

/-! ## Orders which fit with all that is unsettled -/

/-- All orders of the team are sent in the role. -/
def PipelineCall.OfRole (teamId role : String) (call : PipelineCall) :
    Prop :=
  ∀ submission ∈ call.posted,
    submission.2.teamId = teamId → submission.2.role = role

instance (teamId role : String) (call : PipelineCall) :
    Decidable (call.OfRole teamId role) :=
  inferInstanceAs (Decidable (∀ submission ∈ _, _ → _))

/--
The order fits the limit with all that is unsettled if it fits it with the
settled position.
-/
def Pipeline.Covers (state : Pipeline) (limit : ℚ) (order : Order)
    (team : TeamInfo) : Prop :=
  order.side.signed
        (state.positions.getPositionForInstrument team.teamId
          order.instrumentId) +
      order.quantity ≤ limit →
    state.exposure order.side team.teamId order.instrumentId +
      order.quantity ≤ limit

/-- Every order of the team is covered when it is validated. -/
def PipelineCall.Covered (teamId : String) (limit : ℚ) :
    PipelineCall → Pipeline → Prop
  | .validate _, state =>
      ∀ submission ∈
          state.validator.undecided.flatMap OrderMessage.submissions,
        submission.2.teamId = teamId →
          state.Covers limit submission.1 submission.2
  | _, _ => True

instance (teamId : String) (limit : ℚ) (call : PipelineCall)
    (state : Pipeline) : Decidable (call.Covered teamId limit state) := by
  rcases call
  case validate currentTime =>
      exact inferInstanceAs
        (Decidable (∀ submission ∈ _, _ → (_ ≤ _ → _ ≤ _)))
  all_goals exact inferInstanceAs (Decidable True)

/-! ## The limit over a run -/

/-- The exposures of a team are within the limit of its role. -/
structure WithinLimits (validator : ConstraintBasedOrderValidator)
    (teamId role : String) (limit : ℚ) (state : Pipeline) : Prop where
  sound : PipelineSound state
  validator : state.validation.validator = validator
  ofRole : ∀ submission ∈ state.posted,
    submission.2.teamId = teamId → submission.2.role = role
  bounded : ∀ side instrumentId,
    state.exposure side teamId instrumentId ≤ limit

theorem PipelineMove.configured {state next : Pipeline}
    {call : PipelineCall} (move : PipelineMove state call next) :
    next.validation.validator = state.validation.validator := by
  cases move with
  | _ => rfl

theorem OrderSide.signed_signedQuantity (order : Order) :
    order.side.signed order.signedQuantity = order.quantity := by
  rw [Order.signedQuantity]
  cases order.side with
  | buy => rfl
  | sell => exact neg_neg order.quantity

theorem OrderSide.signed_le_abs (side : OrderSide) (quantity : ℚ) :
    side.signed quantity ≤ |quantity| := by
  cases side with
  | buy => exact le_abs_self quantity
  | sell => exact neg_le_abs quantity

section Limits

variable {validator : ConstraintBasedOrderValidator}
  {teamId role : String} {limit : ℚ} {state next : Pipeline}
  {call : PipelineCall}

theorem WithinLimits.start (nonnegative : 0 ≤ limit)
    (cached baseline : PhaseState) :
    WithinLimits validator teamId role limit
      (Pipeline.start cached baseline validator) where
  sound := PipelineSound.start cached baseline validator
  validator := rfl
  ofRole := by
    intro submission member
    cases member
  bounded := by
    intro side instrumentId
    have none : (Pipeline.start cached baseline validator).unsettled side
        teamId instrumentId = 0 := by
      have closed := ExchangeVenue.openQuantity_new side teamId
        instrumentId cached baseline
      show 0 + ExchangeVenue.openQuantity _ side teamId instrumentId + 0 = 0
      rw [Pipeline.start, closed, add_zero, zero_add]
    have flat : side.signed
        ((Pipeline.start cached baseline
            validator).positions.getPositionForInstrument teamId
          instrumentId) = 0 := by
      rw [Pipeline.start,
        PositionManagementService.getPositionForInstrument_new]
      cases side with
      | buy => rfl
      | sell => exact neg_zero
    rw [Pipeline.exposure, flat, none, add_zero]
    exact nonnegative

theorem WithinLimits.step
    (within : WithinLimits validator teamId role limit state)
    (registry :
      validator.constraints .positionLimit =
        some PositionLimitConstraint.check)
    {config : ConstraintConfig}
    (configured : config ∈ validator.getConstraintsForRole role)
    (kind : config.constraintType = .positionLimit)
    (limited : config.parameters.maxPosition = some limit)
    (allowed : call.Allowed state) (ofRole : call.OfRole teamId role)
    (covered : call.Covered teamId limit state)
    (move : PipelineMove state call next) :
    WithinLimits validator teamId role limit next where
  sound := within.sound.step allowed move
  validator := move.configured.trans within.validator
  ofRole := by
    intro submission member
    rw [move.posted] at member
    rcases List.mem_append.mp member with old | new
    · exact within.ofRole submission old
    · exact ofRole submission new
  bounded := by
    intro side instrumentId
    rcases within.sound.exposure_step move side teamId instrumentId with
      less | ⟨order, team, requestId, currentTime, rfl, received, accepted,
        more⟩
    · exact less.trans (within.bounded side instrumentId)
    · rw [Order.quantityOn] at more
      split_ifs at more with isOn
      case neg =>
        rw [add_zero] at more
        exact more.trans (within.bounded side instrumentId)
      case pos =>
        rcases isOn with ⟨rfl, rfl, rfl⟩
        have carried : (order, team) ∈ state.carried := by
          rw [Pipeline.carried, received]
          exact List.mem_append_right _
            (List.mem_append_left _ List.mem_cons_self)
        have posted := within.sound.carried _ carried
        have own := (within.sound.own _ posted).1
        have inRole := within.ofRole _ posted own
        have fits := OrderValidationService.validateNewOrder_bounded
          (within.validator.symm ▸ registry)
          (within.validator.symm ▸ inRole.symm ▸ configured) kind limited
          accepted
        have settled := (OrderSide.signed_le_abs order.side _).trans fits
        rw [OrderSide.signed_add, OrderSide.signed_signedQuantity]
          at settled
        have waits : (order, team) ∈
            state.validator.undecided.flatMap OrderMessage.submissions := by
          rw [received]
          exact List.mem_cons_self
        have whole := covered _ waits own settled
        rw [own] at whole
        exact more.trans whole

/--
In every run in which the orders of a team are covered when they are
validated, the positions of the team stay within the limit of its role.  The
steps of the threads interleave, with each call of the exchange as one step.
-/
theorem positionLimit_of_covered
    (registry :
      validator.constraints .positionLimit =
        some PositionLimitConstraint.check)
    {config : ConstraintConfig}
    (configured : config ∈ validator.getConstraintsForRole role)
    (kind : config.constraintType = .positionLimit)
    (limited : config.parameters.maxPosition = some limit)
    (nonnegative : 0 ≤ limit) {cached baseline : PhaseState}
    {calls : List PipelineCall}
    (run : Run PipelineStep (Pipeline.start cached baseline validator)
      calls state)
    (ofRole : ∀ call ∈ calls, call.OfRole teamId role)
    (covered : Permitted (PipelineCall.Covered teamId limit)
      PipelineCall.execute (Pipeline.start cached baseline validator)
      calls) :
    ∀ instrumentId,
      |state.positions.getPositionForInstrument teamId instrumentId| ≤
        limit := by
  have within : WithinLimits validator teamId role limit state := by
    induction run with
    | refl => exact .start nonnegative cached baseline
    | @snoc middle finish calls call init last induction =>
        rw [permitted_snoc, ← init.eq_replay] at covered
        rcases last with ⟨allowed, rfl⟩
        have before := induction
          (fun call member => ofRole call (List.mem_append_left _ member))
          covered.1
        exact before.step registry configured kind limited allowed
          (ofRole call List.mem_concat_self) covered.2
          (call.execute_moves middle)
  intro instrumentId
  have settled : ∀ side : OrderSide,
      side.signed (state.positions.getPositionForInstrument teamId
        instrumentId) ≤ limit := by
    intro side
    have exposed := within.bounded side instrumentId
    have nonnegative :=
      Pipeline.unsettled_nonneg side teamId instrumentId within.sound
    rw [Pipeline.exposure] at exposed
    linarith
  exact abs_le'.mpr ⟨settled .buy, settled .sell⟩

end Limits

/-! ## Two orders of four where four are allowed -/

namespace Sample

/-- At most four contracts of an instrument. -/
def fourOfEach : ConstraintConfig where
  constraintType := .positionLimit
  parameters := { maxPosition := some 4 }
  errorCode := "MM_POS_LIMIT"
  errorMessage := "Position limit exceeded"

/-- A validator which applies this position limit to market makers. -/
def fourValidator : ConstraintBasedOrderValidator where
  constraints := .default
  roleConstraints := OrderedDict.set ∅ "market_maker" [fourOfEach]

/-- A seller without limits. -/
def unlimitedTeam : TeamInfo where
  teamId := "MAKER"
  role := "hedge_fund"

/-- A sale of ten is offered in the continuous market. -/
def offered : List PipelineCall :=
  [ .checkPhases (PhaseState.default .continuous) fun _ => 0,
    .listInstrument { symbol := "CALL" } ] ++
    passing sellTen unlimitedTeam

/-- The order is accepted and waits in the match queue. -/
def accepting (order : Order) : List PipelineCall :=
  [ .post (.newOrder order buyingTeam order.orderId),
    .validatorTake, .validate 0, .forward, .count 0, .reply ]

/-- The next order is submitted and booked. -/
def settling : List PipelineCall :=
  [ .matcherTake, .submit, .publish, .publisherTake, .publisherForward,
    .trackerTake, .track, .track ]

end Sample

theorem positionLimit_of_covered_sale :
    |(replay PipelineCall.execute
        (Pipeline.start (PhaseState.default .closed)
          (PhaseState.default .closed) Sample.fourValidator)
        (Sample.offered ++ Sample.accepting Sample.buyFour ++
          Sample.settling)).positions.getPositionForInstrument "TAKER"
            "CALL"| ≤ 4 := by
  have registry : Sample.fourValidator.constraints .positionLimit =
      some PositionLimitConstraint.check :=
    rfl
  have configured : Sample.fourOfEach ∈
      Sample.fourValidator.getConstraintsForRole "market_maker" :=
    List.mem_cons_self
  exact positionLimit_of_covered registry configured rfl rfl (by decide)
    (run_replay (by decide +kernel)) (by decide +kernel)
    (by decide +kernel) "CALL"

/-- Both orders fit the settled position, but not each other. -/
theorem positionLimit_exceeded :
    ¬ ∀ (cached baseline : PhaseState)
        (validator : ConstraintBasedOrderValidator)
        (teamId role : String) (limit : ℚ) (config : ConstraintConfig)
        (calls : List PipelineCall) (state : Pipeline),
      validator.constraints .positionLimit =
          some PositionLimitConstraint.check →
        config ∈ validator.getConstraintsForRole role →
          config.constraintType = .positionLimit →
            config.parameters.maxPosition = some limit → 0 ≤ limit →
              Run PipelineStep (Pipeline.start cached baseline validator)
                  calls state →
                (∀ call ∈ calls, call.OfRole teamId role) →
                  ∀ instrumentId,
                    |state.positions.getPositionForInstrument teamId
                        instrumentId| ≤ limit := by
  intro limited
  have bounded := limited (PhaseState.default .closed)
    (PhaseState.default .closed) Sample.fourValidator "TAKER"
    "market_maker" 4 Sample.fourOfEach
    (Sample.offered ++ Sample.accepting Sample.buyFour ++
      Sample.accepting { Sample.buyFour with orderId := "BUY2" } ++
      Sample.settling ++ Sample.settling)
    _ rfl List.mem_cons_self rfl rfl (by decide)
    (run_replay (by decide +kernel)) (by decide +kernel) "CALL"
  revert bounded
  decide +kernel

end InternTradingGame
