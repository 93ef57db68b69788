import InternTradingGame.Library.Windows
import InternTradingGame.Pipeline.Threads
import Mathlib.Data.Rat.Floor

/-!
# The rate of accepted orders

The validator thread reads the clock twice for an order it accepts: the
constraint is checked at the first reading, and the order is counted at the
second.  The seconds may roll over in between, and the thread may count other
teams before it sees the team again.

The window the service keeps for a team summarizes the seconds in which the
team's orders were counted, so the check knows exactly how many were counted
in the second it is made in.
-/

namespace InternTradingGame

open Windows

/-! ## The windows summarize what has been counted -/

section Seconds

variable {time later : ℚ}

theorem truncate_eq_iff (nonnegative : 0 ≤ time) (second : ℤ) :
    truncate time = second ↔ (second : ℚ) ≤ time ∧ time < second + 1 := by
  rw [truncate, if_pos nonnegative]
  show ⌊time⌋ = second ↔ _
  exact Int.floor_eq_iff

theorem truncate_mono (nonnegative : 0 ≤ time) (le : time ≤ later) :
    truncate time ≤ truncate later := by
  rw [truncate, truncate, if_pos nonnegative,
    if_pos (nonnegative.trans le)]
  exact Rat.floor_monotone le

end Seconds

namespace OrderValidationService

variable (service : OrderValidationService) (teamId : String)
  (currentTime : ℚ)

/-- The window of a team: how many orders, and in which second. -/
def summaryOf : Summary ℤ :=
  (service.rateLimitWindows.get? teamId).map fun window =>
    (window.count, truncate window.windowStart)

theorem getOrderCount_eq :
    service.getOrderCount teamId currentTime =
      (service.summaryOf teamId).read (truncate currentTime) := by
  rw [getOrderCount, summaryOf]
  cases service.rateLimitWindows.get? teamId with
  | none => rfl
  | some window =>
      show (if decide (truncate currentTime = truncate window.windowStart)
        then _ else _) = _
      simp only [decide_eq_true_eq]
      rfl

theorem summaryOf_incrementOrderCount (other : String) :
    (service.incrementOrderCount teamId currentTime).summaryOf other =
      if other = teamId then
        (service.summaryOf teamId).bump (truncate currentTime)
      else
        service.summaryOf other := by
  rw [summaryOf, incrementOrderCount, OrderedDict.get?_set]
  split_ifs with same
  · rw [summaryOf]
    cases service.rateLimitWindows.get? teamId with
    | none => rfl
    | some window =>
        show some (_, _) = ite _ _ _
        simp only [RateLimitWindow.isCurrentWindow, decide_eq_true_eq]
        split_ifs
        · rfl
        · rfl
  · rfl

end OrderValidationService

/-! ## The pipeline with the clock of the validator thread -/

/-- The team of the order which has been accepted and not counted. -/
def ValidatorState.accepted : ValidatorState → List TeamInfo
  | forwarding _ team _ => [team]
  | counting _ team _ => [team]
  | _ => []

/-- The new orders which wait to be validated. -/
def Pipeline.waiting (state : Pipeline) : List (Order × TeamInfo) :=
  state.validator.undecided.flatMap OrderMessage.submissions ++
    state.orderQueue.flatMap OrderMessage.submissions

namespace PipelineCall

/-- The time the validator thread reads in a step. -/
def readsClock : PipelineCall → List ℚ
  | validate currentTime => [currentTime]
  | count currentTime => [currentTime]
  | _ => []

/-- The new order a step puts on the order queue. -/
def posted : PipelineCall → List (Order × TeamInfo)
  | post message => message.submissions
  | _ => []

/-- The team a step counts an order of, with the time. -/
def stamps (call : PipelineCall) (state : Pipeline) :
    List (String × ℚ) :=
  match call, state.validator with
  | count currentTime, .counting _ team _ => [(team.teamId, currentTime)]
  | _, _ => []

end PipelineCall

/--
The pipeline, the last time the validator thread has read, and when it has
counted an order of which team.
-/
structure TimedPipeline where
  pipeline : Pipeline
  clock : ℚ
  stamps : List (String × ℚ)

namespace TimedPipeline

/-- The pipeline as it starts, before anything has been counted. -/
def start (cached baseline : PhaseState)
    (validator : ConstraintBasedOrderValidator) : TimedPipeline where
  pipeline := Pipeline.start cached baseline validator
  clock := 0
  stamps := []

/--
A call of the pipeline.  Calls which read the clock set it, and a call which
counts an order leaves its stamp.
-/
def execute (call : PipelineCall) (state : TimedPipeline) :
    TimedPipeline where
  pipeline := call.execute state.pipeline
  clock := call.readsClock.headD state.clock
  stamps := state.stamps ++ call.stamps state.pipeline

/-- How many orders of a team have been counted within a second. -/
def countedWithin (state : TimedPipeline) (teamId : String)
    (second : ℤ) : ℕ :=
  (state.stamps.filter fun stamp =>
    stamp.1 = teamId ∧ (second : ℚ) ≤ stamp.2 ∧
      stamp.2 < (second : ℚ) + 1).length

/-- The seconds in which the orders of a team have been counted. -/
def seconds (state : TimedPipeline) (teamId : String) : List ℤ :=
  (state.stamps.filter fun stamp => stamp.1 = teamId).map fun stamp =>
    truncate stamp.2

theorem countedWithin_eq {state : TimedPipeline}
    (nonnegative : ∀ stamp ∈ state.stamps, 0 ≤ stamp.2)
    (teamId : String) (second : ℤ) :
    state.countedWithin teamId second =
      (state.seconds teamId).count second := by
  rw [seconds, List.count, List.countP_map, List.countP_eq_length_filter,
    List.filter_filter, countedWithin]
  congr 1
  apply List.filter_congr
  intro stamp member
  rw [Bool.decide_and, Bool.and_comm]
  congr 1
  exact decide_eq_decide.mpr
    (truncate_eq_iff (nonnegative stamp member) second).symm

end TimedPipeline

/-- The constraint allows a number of orders in a second. -/
def ConstraintConfig.IsRateLimit (config : ConstraintConfig)
    (limit : ℕ) : Prop :=
  config.constraintType = .orderRate ∧
    config.parameters.maxOrdersPerSecond = some (limit : ℚ)

instance (config : ConstraintConfig) (limit : ℕ) :
    Decidable (config.IsRateLimit limit) :=
  inferInstanceAs (Decidable (_ ∧ _))

/-- The role of the team has a limit. -/
def RateLimited (validator : ConstraintBasedOrderValidator) (limit : ℕ)
    (team : TeamInfo) : Prop :=
  ∃ config ∈ validator.getConstraintsForRole team.role,
    config.IsRateLimit limit

instance (validator : ConstraintBasedOrderValidator) (limit : ℕ)
    (team : TeamInfo) : Decidable (RateLimited validator limit team) :=
  inferInstanceAs (Decidable (∃ config ∈ _, _))

/--
The clock does not go back, and the orders of the team are posted under a
role with the limit.
-/
def RateLimitedCall (validator : ConstraintBasedOrderValidator)
    (teamId : String) (limit : ℕ) (call : PipelineCall)
    (state : TimedPipeline) : Prop :=
  (∀ time ∈ call.readsClock, state.clock ≤ time) ∧
    ∀ submission ∈ call.posted, submission.2.teamId = teamId →
      RateLimited validator limit submission.2

instance (validator : ConstraintBasedOrderValidator) (teamId : String)
    (limit : ℕ) (call : PipelineCall) (state : TimedPipeline) :
    Decidable (RateLimitedCall validator teamId limit call state) :=
  inferInstanceAs (Decidable (_ ∧ _))

/-- One step of the pipeline, with the clock. -/
abbrev TimedStep (validator : ConstraintBasedOrderValidator)
    (teamId : String) (limit : ℕ) :
    TimedPipeline → PipelineCall → TimedPipeline → Prop :=
  GuardedStep (RateLimitedCall validator teamId limit)
    TimedPipeline.execute

/-! ## What the steps do to the validator thread -/

section Steps

variable (state : Pipeline)

/-- A step of another thread. -/
def PipelineCall.OfOthers : PipelineCall → Prop
  | listInstrument _ => True
  | matcherTake => True
  | submit => True
  | publish => True
  | checkPhases _ _ => True
  | publisherTake => True
  | publisherForward => True
  | trackerTake => True
  | track => True
  | _ => False

/-- The validator thread, its queue and its service are as before. -/
structure SameValidator (before after : Pipeline) : Prop where
  validation : after.validation = before.validation
  validator : after.validator = before.validator
  orderQueue : after.orderQueue = before.orderQueue

/-- The other threads leave the validator thread alone. -/
theorem Pipeline.sameValidator_execute {call : PipelineCall}
    (others : call.OfOthers) :
    SameValidator state (call.execute state) := by
  cases call with
  | listInstrument => exact ⟨rfl, rfl, rfl⟩
  | matcherTake =>
      show SameValidator state state.matcherTake
      rw [matcherTake]
      split <;> exact ⟨rfl, rfl, rfl⟩
  | submit =>
      show SameValidator state state.submit
      rw [submit]
      split
      · dsimp only
        split <;> exact ⟨rfl, rfl, rfl⟩
      · exact ⟨rfl, rfl, rfl⟩
  | publish =>
      show SameValidator state state.publish
      rw [publish]
      split <;> exact ⟨rfl, rfl, rfl⟩
  | checkPhases observed draw =>
      show SameValidator state (state.checkPhases observed draw)
      rw [checkPhases]
      split
      · split <;> exact ⟨rfl, rfl, rfl⟩
      · exact ⟨rfl, rfl, rfl⟩
  | publisherTake =>
      show SameValidator state state.publisherTake
      rw [publisherTake]
      split <;> exact ⟨rfl, rfl, rfl⟩
  | publisherForward =>
      show SameValidator state state.publisherForward
      rw [publisherForward]
      split <;> exact ⟨rfl, rfl, rfl⟩
  | trackerTake =>
      show SameValidator state state.trackerTake
      rw [trackerTake]
      split <;> exact ⟨rfl, rfl, rfl⟩
  | track =>
      show SameValidator state state.track
      rw [track]
      split <;> exact ⟨rfl, rfl, rfl⟩
  | _ => cases others

theorem SameValidator.waiting_eq {before after : Pipeline}
    (same : SameValidator before after) :
    after.waiting = before.waiting := by
  rw [Pipeline.waiting, same.validator, same.orderQueue]
  rfl

theorem afterValidation_undecided (order : Order) (team : TeamInfo)
    (requestId : String) (result : OrderResult) :
    (afterValidation order team requestId result).undecided = [] := by
  rcases afterValidation_cases order team requestId result with
    ⟨_, forwards⟩ | ⟨_, response, replies, _⟩
  · rw [forwards]
    rfl
  · rw [replies]
    rfl

theorem afterValidation_accepted {order : Order} {team other : TeamInfo}
    {requestId : String} {result : OrderResult}
    (member :
      other ∈ (afterValidation order team requestId result).accepted) :
    other = team ∧ result.status = .accepted := by
  rcases afterValidation_cases order team requestId result with
    ⟨accepted, forwards⟩ | ⟨_, response, replies, _⟩
  · rw [forwards] at member
    exact ⟨List.mem_singleton.mp member, accepted⟩
  · rw [replies] at member
    cases member

theorem afterCancellation_undecided (orderId requestId : String)
    (answer : Except PyError (Bool × Option String)) :
    (afterCancellation orderId requestId answer).undecided = [] := by
  rcases afterCancellation_replies orderId requestId answer with
    ⟨response, replies, _⟩
  rw [replies]
  rfl

theorem afterCancellation_accepted (orderId requestId : String)
    (answer : Except PyError (Bool × Option String)) :
    (afterCancellation orderId requestId answer).accepted = [] := by
  rcases afterCancellation_replies orderId requestId answer with
    ⟨response, replies, _⟩
  rw [replies]
  rfl

/-- Only a post makes a new order wait. -/
theorem Pipeline.mem_waiting_execute {call : PipelineCall}
    {submission : Order × TeamInfo}
    (member : submission ∈ (call.execute state).waiting) :
    submission ∈ state.waiting ∨ submission ∈ call.posted := by
  by_cases others : call.OfOthers
  · rw [(sameValidator_execute state others).waiting_eq] at member
    exact Or.inl member
  cases call with
  | post message =>
      change submission ∈ (state.post message).waiting at member
      rw [waiting, post, List.flatMap_append, ← List.append_assoc] at member
      rcases List.mem_append.mp member with before | new
      · exact Or.inl before
      · rw [List.flatMap_singleton] at new
        exact Or.inr new
  | validatorTake =>
      change submission ∈ state.validatorTake.waiting at member
      left
      rw [validatorTake] at member
      split at member
      case h_1 message rest idle queued =>
        rw [waiting, idle, queued]
        simpa [waiting, ValidatorState.undecided] using member
      case h_2 => exact member
  | validate currentTime =>
      change submission ∈ (state.validate currentTime).waiting at member
      left
      rw [validate] at member
      split at member
      · rw [waiting, afterValidation_undecided] at member
        exact List.mem_append_right _ member
      · exact member
  | forward =>
      change submission ∈ state.forward.waiting at member
      left
      rw [forward] at member
      split at member
      · exact List.mem_append_right _ member
      · exact member
  | count currentTime =>
      change submission ∈ (state.count currentTime).waiting at member
      left
      rw [count] at member
      split at member
      · exact List.mem_append_right _ member
      · exact member
  | cancel =>
      change submission ∈ state.cancel.waiting at member
      left
      rw [cancel] at member
      split at member
      · rw [waiting, afterCancellation_undecided] at member
        exact List.mem_append_right _ member
      · exact member
  | reply =>
      change submission ∈ state.reply.waiting at member
      left
      rw [reply] at member
      split at member
      · exact List.mem_append_right _ member
      · exact member
  | _ => exact absurd trivial others

/-- The step accepts an order of the team. -/
structure Pipeline.Accepts (call : PipelineCall) (team : TeamInfo) :
    Prop where
  accepts : ∃ currentTime order requestId,
    call = .validate currentTime ∧
      state.validator = .received (.newOrder order team requestId) ∧
        (state.validation.validateNewOrder state.positions order team
          currentTime).status = .accepted

/-- Only an accepting step makes an accepted order wait to be counted. -/
theorem Pipeline.mem_accepted_execute {call : PipelineCall}
    {team : TeamInfo}
    (member : team ∈ (call.execute state).validator.accepted) :
    team ∈ state.validator.accepted ∨ state.Accepts call team := by
  by_cases others : call.OfOthers
  · rw [(sameValidator_execute state others).validator] at member
    exact Or.inl member
  cases call with
  | post message => exact Or.inl member
  | validatorTake =>
      change team ∈ state.validatorTake.validator.accepted at member
      left
      rw [validatorTake] at member
      split at member
      · cases member
      · exact member
  | validate currentTime =>
      change team ∈ (state.validate currentTime).validator.accepted
        at member
      rw [validate] at member
      split at member
      case h_1 order other requestId received =>
        rcases afterValidation_accepted member with ⟨rfl, accepted⟩
        exact Or.inr
          ⟨currentTime, order, requestId, rfl, received, accepted⟩
      case h_2 => exact Or.inl member
  | forward =>
      change team ∈ state.forward.validator.accepted at member
      left
      rw [forward] at member
      split at member
      case h_1 order other requestId forwarding =>
        rw [forwarding]
        exact member
      case h_2 => exact member
  | count currentTime =>
      change team ∈ (state.count currentTime).validator.accepted at member
      left
      rw [count] at member
      split at member
      · cases member
      · exact member
  | cancel =>
      change team ∈ state.cancel.validator.accepted at member
      left
      rw [cancel] at member
      split at member
      · dsimp only at member
        rw [afterCancellation_accepted] at member
        cases member
      · exact member
  | reply =>
      change team ∈ state.reply.validator.accepted at member
      left
      rw [reply] at member
      split at member
      · cases member
      · exact member
  | _ => exact absurd trivial others

/-- Only counting an order changes the service. -/
theorem Pipeline.validation_execute {call : PipelineCall}
    (nothing : call.stamps state = []) :
    (call.execute state).validation = state.validation := by
  by_cases others : call.OfOthers
  · exact (sameValidator_execute state others).validation
  cases call with
  | post message => rfl
  | validatorTake =>
      show state.validatorTake.validation = _
      rw [validatorTake]
      split <;> rfl
  | validate currentTime =>
      show (state.validate currentTime).validation = _
      rw [validate]
      split <;> rfl
  | forward =>
      show state.forward.validation = _
      rw [forward]
      split <;> rfl
  | count currentTime =>
      show (state.count currentTime).validation = _
      rw [count]
      split
      case h_1 order team requestId counting =>
        simp [PipelineCall.stamps, counting] at nothing
      case h_2 => rfl
  | cancel =>
      show state.cancel.validation = _
      rw [cancel]
      split <;> rfl
  | reply =>
      show state.reply.validation = _
      rw [reply]
      split <;> rfl
  | _ => exact absurd trivial others

/-- What is stamped is the order the thread is about to count. -/
theorem PipelineCall.stamps_cases (call : PipelineCall) :
    call.stamps state = [] ∨
      ∃ currentTime order team requestId,
        call = .count currentTime ∧
          state.validator = .counting order team requestId ∧
          call.stamps state = [(team.teamId, currentTime)] := by
  cases call with
  | count currentTime =>
      cases held : state.validator with
      | counting order team requestId =>
          refine Or.inr ⟨currentTime, order, team, requestId, rfl, rfl, ?_⟩
          simp only [stamps, held]
      | _ => exact Or.inl (by simp only [stamps, held])
  | _ => exact Or.inl rfl

end Steps

/-! ## The invariant -/

section Invariant

variable {validator : ConstraintBasedOrderValidator} {teamId : String}
  {limit : ℕ} {state next : TimedPipeline}

/-- The limit has been kept, and the window knows what has been counted. -/
structure WithinRate (validator : ConstraintBasedOrderValidator)
    (teamId : String) (limit : ℕ) (state : TimedPipeline) : Prop where
  configured : state.pipeline.validation.validator = validator
  started : 0 ≤ state.clock
  nonnegative : ∀ stamp ∈ state.stamps, 0 ≤ stamp.2
  keeps : KeepsLimit limit (truncate state.clock)
    (state.pipeline.validation.summaryOf teamId) (state.seconds teamId)
  limited : ∀ submission ∈ state.pipeline.waiting,
    submission.2.teamId = teamId →
      RateLimited validator limit submission.2
  admits : ∀ team ∈ state.pipeline.validator.accepted,
    team.teamId = teamId →
      Admits limit (truncate state.clock) (state.seconds teamId)

theorem WithinRate.start (cached baseline : PhaseState) :
    WithinRate validator teamId limit
      (TimedPipeline.start cached baseline validator) where
  configured := rfl
  started := le_rfl
  nonnegative := nofun
  keeps := KeepsLimit.empty limit _
  limited := nofun
  admits := nofun

theorem TimedPipeline.seconds_of_eq
    (stamps : next.stamps = state.stamps) :
    next.seconds teamId = state.seconds teamId := by
  rw [seconds, stamps]
  rfl

theorem TimedPipeline.seconds_of_snoc {other : String} {time : ℚ}
    (stamps : next.stamps = state.stamps ++ [(other, time)]) :
    next.seconds teamId =
      state.seconds teamId ++
        if other = teamId then [truncate time] else [] := by
  rw [seconds, stamps, List.filter_append, List.map_append]
  congr 1
  split_ifs with same
  · rw [List.filter_cons_of_pos (by simpa using same)]
    rfl
  · rw [List.filter_cons_of_neg (by simpa using same)]
    rfl

/-- A step which counts no order. -/
theorem WithinRate.uncounted
    (within : WithinRate validator teamId limit state)
    (validation : next.pipeline.validation = state.pipeline.validation)
    (stamps : next.stamps = state.stamps)
    (clock : state.clock ≤ next.clock)
    (waiting : ∀ submission ∈ next.pipeline.waiting,
      submission ∈ state.pipeline.waiting ∨
        (submission.2.teamId = teamId →
          RateLimited validator limit submission.2))
    (accepted : ∀ team ∈ next.pipeline.validator.accepted,
      team ∈ state.pipeline.validator.accepted ∨
        (team.teamId = teamId →
          Admits limit (truncate next.clock) (state.seconds teamId))) :
    WithinRate validator teamId limit next := by
  have later := truncate_mono within.started clock
  have seconds : next.seconds teamId = state.seconds teamId :=
    TimedPipeline.seconds_of_eq stamps
  constructor
  · rw [validation]
    exact within.configured
  · exact within.started.trans clock
  · rw [stamps]
    exact within.nonnegative
  · rw [validation, seconds]
    exact within.keeps.mono later
  · intro submission member ofTeam
    rcases waiting submission member with before | new
    · exact within.limited submission before ofTeam
    · exact new ofTeam
  · intro team member ofTeam
    rw [seconds]
    rcases accepted team member with before | new
    · exact (within.admits team before ofTeam).mono later
    · exact new ofTeam

/-- A step which counts an order of some team. -/
theorem WithinRate.counted
    (within : WithinRate validator teamId limit state)
    {currentTime : ℚ} {team : TeamInfo}
    (clock : state.clock ≤ currentTime)
    (accepted : team ∈ state.pipeline.validator.accepted)
    (validation : next.pipeline.validation =
      state.pipeline.validation.incrementOrderCount team.teamId
        currentTime)
    (stamps : next.stamps = state.stamps ++ [(team.teamId, currentTime)])
    (read : next.clock = currentTime)
    (waiting : ∀ submission ∈ next.pipeline.waiting,
      submission ∈ state.pipeline.waiting)
    (nobody : next.pipeline.validator.accepted = []) :
    WithinRate validator teamId limit next := by
  have later := truncate_mono within.started clock
  have nonnegative : 0 ≤ currentTime := within.started.trans clock
  constructor
  · rw [validation]
    exact within.configured
  · exact read ▸ nonnegative
  · intro stamp member
    rw [stamps] at member
    rcases List.mem_append.mp member with before | new
    · exact within.nonnegative stamp before
    · rw [List.mem_singleton.mp new]
      exact nonnegative
  · rw [validation, read, TimedPipeline.seconds_of_snoc stamps,
      OrderValidationService.summaryOf_incrementOrderCount]
    by_cases ofTeam : team.teamId = teamId
    · rw [if_pos ofTeam, if_pos ofTeam.symm, ofTeam]
      exact (within.keeps.mono later).event
        ((within.admits team accepted ofTeam).mono later)
    · rw [if_neg ofTeam, if_neg (Ne.symm ofTeam), List.append_nil]
      exact within.keeps.mono later
  · intro submission member
    exact within.limited submission (waiting submission member)
  · intro other member
    rw [nobody] at member
    cases member

/-! ## The check of the constraint -/

theorem OrderRateConstraint.isValid_iff {context : ValidationContext}
    {config : ConstraintConfig} (rate : config.IsRateLimit limit) :
    (OrderRateConstraint.check context config).isValid = true ↔
      context.ordersThisSecond < limit := by
  rw [OrderRateConstraint.check, rate.2]
  by_cases below : context.ordersThisSecond < limit
  · simp [below]
  · simp [below]

/-- The check compares the limit with what the window knows. -/
theorem WithinRate.satisfies_iff
    (within : WithinRate validator teamId limit state)
    (registry :
      validator.constraints .orderRate = some OrderRateConstraint.check)
    {config : ConstraintConfig} (rate : config.IsRateLimit limit)
    {order : Order} {team : TeamInfo} (ofTeam : team.teamId = teamId)
    (currentTime : ℚ) :
    state.pipeline.validation.validator.Satisfies
        (state.pipeline.validation.validationContext
          state.pipeline.positions order team currentTime) config ↔
      (state.pipeline.validation.summaryOf teamId).read
        (truncate currentTime) < limit := by
  have registered : state.pipeline.validation.validator.constraints
      config.constraintType = some OrderRateConstraint.check := by
    rw [within.configured, rate.1, registry]
  rw [ConstraintBasedOrderValidator.satisfies_iff registered,
    OrderRateConstraint.isValid_iff rate,
    ← OrderValidationService.getOrderCount_eq, ← ofTeam]
  rfl

/-- Every step keeps the limit. -/
theorem WithinRate.execute
    (within : WithinRate validator teamId limit state)
    (registry :
      validator.constraints .orderRate = some OrderRateConstraint.check)
    {call : PipelineCall}
    (allowed : RateLimitedCall validator teamId limit call state) :
    WithinRate validator teamId limit
      (TimedPipeline.execute call state) := by
  have clock : state.clock ≤ (TimedPipeline.execute call state).clock := by
    show state.clock ≤ call.readsClock.headD state.clock
    cases read : call.readsClock with
    | nil => exact le_rfl
    | cons time rest =>
        exact allowed.1 time (read ▸ List.mem_cons_self)
  rcases call.stamps_cases state.pipeline with none |
    ⟨currentTime, order, team, requestId, rfl, counting, stamped⟩
  · apply within.uncounted (Pipeline.validation_execute _ none)
      ((congrArg (state.stamps ++ ·) none).trans
        (List.append_nil state.stamps)) clock
    · intro submission member
      rcases Pipeline.mem_waiting_execute _ member with before | posted
      · exact Or.inl before
      · exact Or.inr (allowed.2 submission posted)
    · intro team member
      rcases Pipeline.mem_accepted_execute _ member with before |
        ⟨currentTime, order, requestId, rfl, received, accepted⟩
      · exact Or.inl before
      · right
        intro ofTeam
        have waits : (order, team) ∈ state.pipeline.waiting := by
          rw [Pipeline.waiting, received]
          exact List.mem_append_left _ List.mem_cons_self
        rcases within.limited (order, team) waits ofTeam with
          ⟨config, configured, rate⟩
        have met := (ConstraintBasedOrderValidator.validateOrder_answersFor
          _ _).accepted_iff.mp accepted config
            (within.configured.symm ▸ configured)
        exact (within.keeps.mono
          (truncate_mono within.started clock)).admits
            ((within.satisfies_iff registry rate ofTeam currentTime).mp met)
  · have counted : PipelineCall.execute (.count currentTime)
          state.pipeline =
        { state.pipeline with
          validation :=
            state.pipeline.validation.incrementOrderCount team.teamId
              currentTime
          validator :=
            .replying requestId (.succeeded requestId order.orderId) } := by
      show state.pipeline.count currentTime = _
      rw [Pipeline.count, counting]
    have accepted : team ∈ state.pipeline.validator.accepted := by
      rw [counting]
      exact List.mem_cons_self
    apply within.counted clock accepted
    · show (PipelineCall.execute _ _).validation = _
      rw [counted]
      rfl
    · exact congrArg (state.stamps ++ ·) stamped
    · rfl
    · intro submission member
      rcases Pipeline.mem_waiting_execute _ member with before | none
      · exact before
      · cases none
    · show (PipelineCall.execute _ _).validator.accepted = []
      rw [counted]
      rfl

end Invariant

/--
The orders of a team have been counted at most as often as its limit allows
in every second, and the constraint rejects an order only where that many
have been counted in the second it is validated in.
-/
structure RateExact (teamId : String) (limit : ℕ)
    (state : TimedPipeline) : Prop where
  bounded : ∀ second, state.countedWithin teamId second ≤ limit
  rejected : ∀ order team requestId currentTime config,
    state.pipeline.validator = .received (.newOrder order team requestId) →
      team.teamId = teamId → state.clock ≤ currentTime →
        config.IsRateLimit limit →
          FirstBroken
            (state.pipeline.validation.validator.Satisfies
              (state.pipeline.validation.validationContext
                state.pipeline.positions order team currentTime))
            (state.pipeline.validation.validator.getConstraintsForRole
              team.role) config →
            state.countedWithin teamId ⌊currentTime⌋ = limit

/-- The limit on orders in a second is exact in every run. -/
theorem orderRate_exact {validator : ConstraintBasedOrderValidator}
    {teamId : String} {limit : ℕ} {cached baseline : PhaseState}
    (registry :
      validator.constraints .orderRate = some OrderRateConstraint.check)
    {calls : List PipelineCall} {state : TimedPipeline}
    (run : Run (TimedStep validator teamId limit)
      (TimedPipeline.start cached baseline validator) calls state) :
    RateExact teamId limit state := by
  have within : WithinRate validator teamId limit state := by
    apply run.invariant _ (WithinRate.start cached baseline)
    rintro state call _ within ⟨allowed, rfl⟩
    exact within.execute registry allowed
  constructor
  · intro second
    rw [TimedPipeline.countedWithin_eq within.nonnegative]
    exact within.keeps.bounded second
  · intro order team requestId currentTime config _ ofTeam clock rate
      first
    have full := (within.keeps.mono
      (truncate_mono within.started clock)).full fun below =>
        first.broken
          ((within.satisfies_iff registry rate ofTeam currentTime).mpr below)
    have second : truncate currentTime = ⌊currentTime⌋ :=
      if_pos (within.started.trans clock)
    rw [TimedPipeline.countedWithin_eq within.nonnegative, ← second]
    exact full

/-! ## One order in a second -/

namespace Sample

/-- At most one order in every second of the clock. -/
def onePerSecond : ConstraintConfig where
  constraintType := .orderRate
  parameters := { maxOrdersPerSecond := some 1 }
  errorCode := "MM_ORDER_RATE"
  errorMessage := "Order rate exceeded"

/-- A validator which applies this rate limit to market makers. -/
def onePerSecondValidator : ConstraintBasedOrderValidator where
  constraints := .default
  roleConstraints := OrderedDict.set ∅ "market_maker" [onePerSecond]

/-- Checked in the first second, counted in the next. -/
def rollover : List PipelineCall :=
  [ .post (.newOrder buyFour
      { teamId := "TAKER", role := "market_maker" } "REQ"),
    .validatorTake, .validate (9 / 10), .forward, .count (11 / 10),
    .reply ]

end Sample

/-- An order which is counted in a later second than it was checked in. -/
theorem orderRate_exact_rollover :
    RateExact "TAKER" 1
      (replay TimedPipeline.execute
        (TimedPipeline.start (PhaseState.default .closed)
          (PhaseState.default .closed) Sample.onePerSecondValidator)
        Sample.rollover) := by
  have registry : Sample.onePerSecondValidator.constraints .orderRate =
      some OrderRateConstraint.check :=
    rfl
  exact orderRate_exact registry (run_replay (by decide +kernel))

end InternTradingGame
