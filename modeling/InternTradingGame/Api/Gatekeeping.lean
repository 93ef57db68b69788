import InternTradingGame.Api.Delivery
import InternTradingGame.Api.FailedSubmission
import InternTradingGame.Pipeline.PositionLimits
import InternTradingGame.Services.Requirements

/-!
# The gate in front of the exchange

An order can only reach the exchange through the validator thread.  So
whatever the exchange has taken in met all constraints of its team's role at
the moment it was validated, and whatever the thread refuses broke one.

Between this moment and the trade the positions may change; the constraints
speak of the positions the validator has seen.
-/

namespace InternTradingGame

/-! ## Decisions -/

/-- The validator thread is about to decide the new order. -/
structure Deciding (validator : ConstraintBasedOrderValidator)
    (state : Pipeline) (order : Order) (team : TeamInfo) : Prop where
  held : ∃ requestId,
    state.validator = .received (.newOrder order team requestId)
  configured : state.validation.validator = validator

/-- The order meets a constraint when it is validated in a state. -/
def Pipeline.Meets (state : Pipeline) (order : Order) (team : TeamInfo)
    (currentTime : ℚ) (config : ConstraintConfig) : Prop :=
  config.Met state.positions order team
    (state.validation.getOrderCount team.teamId currentTime)

/-- Some step has validated the order and found every constraint met. -/
def Admitted (validator : ConstraintBasedOrderValidator)
    (initial : Pipeline) (calls : List PipelineCall) (order : Order)
    (team : TeamInfo) : Prop :=
  ∃ before currentTime after state,
    calls = before ++ .validate currentTime :: after ∧
      Run PipelineStep initial before state ∧
        Deciding validator state order team ∧
          ∀ config ∈ validator.getConstraintsForRole team.role,
            state.Meets order team currentTime config

/-- Some step has validated the order and found a first broken one. -/
def Barred (validator : ConstraintBasedOrderValidator)
    (initial : Pipeline) (calls : List PipelineCall) (order : Order)
    (team : TeamInfo) (code : String) : Prop :=
  ∃ before currentTime after state config,
    calls = before ++ .validate currentTime :: after ∧
      Run PipelineStep initial before state ∧
        Deciding validator state order team ∧
          FirstBroken (state.Meets order team currentTime)
            (validator.getConstraintsForRole team.role) config ∧
          config.errorCode = code

/-- A rejection has a code and a message. -/
theorem ConstraintBasedOrderValidator.applyConstraints_message
    (validator : ConstraintBasedOrderValidator)
    (context : ValidationContext) (configs : List ConstraintConfig)
    (refused :
      (validator.applyConstraints context configs).status ≠ .accepted) :
    ∃ message,
      (validator.applyConstraints context configs).errorMessage =
        some message := by
  induction configs with
  | nil => exact absurd rfl refused
  | cons config configs induction =>
      rw [applyConstraints] at refused ⊢
      cases registered : validator.constraints config.constraintType with
      | none =>
          rw [registered] at refused
          exact induction refused
      | some check =>
          rw [registered] at refused
          by_cases valid : (check context config).isValid = true
          · simp only [valid, if_true] at refused ⊢
            exact induction refused
          · simp only [if_neg valid]
            exact ⟨_, rfl⟩

section Gate

variable {validator : ConstraintBasedOrderValidator}
  {initial state next : Pipeline} {calls : List PipelineCall}
  {call : PipelineCall} {order : Order} {team : TeamInfo} {code : String}

theorem Admitted.snoc
    (admitted : Admitted validator initial calls order team) :
    Admitted validator initial (calls ++ [call]) order team := by
  rcases admitted with ⟨before, currentTime, after, state, rfl, facts⟩
  exact ⟨before, currentTime, after ++ [call], state, by simp, facts⟩

theorem Barred.snoc
    (barred : Barred validator initial calls order team code) :
    Barred validator initial (calls ++ [call]) order team code := by
  rcases barred with
    ⟨before, currentTime, after, state, config, rfl, facts⟩
  exact ⟨before, currentTime, after ++ [call], state, config, by simp,
    facts⟩

/-- What has been answered is what the constraints require. -/
theorem Deciding.answersFor (deciding : Deciding validator state order team)
    (registry : validator.constraints = .default) (currentTime : ℚ) :
    AnswersFor (state.Meets order team currentTime)
      (validator.getConstraintsForRole team.role)
      (state.validation.validateNewOrder state.positions order team
        currentTime) := by
  rcases deciding with ⟨_, rfl⟩
  exact OrderValidationService.validateNewOrder_answersFor registry
    state.positions order team currentTime

/-- A reply which turns an order away names the first broken constraint. -/
theorem Deciding.barred (deciding : Deciding validator state order team)
    (registry : validator.constraints = .default)
    (run : Run PipelineStep initial calls state) (currentTime : ℚ)
    {requestId answered : String} {response : ApiResponse}
    (replying :
      afterValidation order team requestId
          (state.validation.validateNewOrder state.positions order team
            currentTime) =
        .replying answered response) :
    ∃ error, response.error = some error ∧
      Barred validator initial (calls ++ [.validate currentTime]) order
        team error.code := by
  have answers := deciding.answersFor registry currentTime
  have refused : (state.validation.validateNewOrder state.positions order
      team currentTime).status ≠ .accepted := by
    intro accepted
    rw [afterValidation, accepted] at replying
    cases replying
  rcases answers.rejected refused with ⟨rejected, config, first, code⟩
  rcases state.validation.validator.applyConstraints_message _ _ refused
    with ⟨message, told⟩
  rw [afterValidation, rejected, code, show
    (state.validation.validateNewOrder state.positions order team
      currentTime).errorMessage = some message from told] at replying
  cases replying
  exact ⟨_, rfl, calls, currentTime, [], state, config, rfl, run, deciding,
    first, rfl⟩

/-! ## What every step keeps -/

/-- What holds of the gate after some steps. -/
structure Guarded (validator : ConstraintBasedOrderValidator)
    (initial : Pipeline) (calls : List PipelineCall) (state : Pipeline) :
    Prop where
  sound : PipelineSound state
  truly : RepliesTruly state
  configured : state.validation.validator = validator
  approved : ∀ submission ∈ state.approved,
    submission ∈ state.posted ∧
      Admitted validator initial calls submission.1 submission.2
  submitted : ∀ order ∈ state.submitted, ∃ team,
    (order, team) ∈ state.posted ∧
      Admitted validator initial calls order team
  refused : ∀ requestId response,
    state.validator = .replying requestId response →
      response.success = false →
        ∀ order team, .newOrder order team requestId ∈ state.received →
          ∃ error, response.error = some error ∧
            Barred validator initial calls order team error.code

namespace Guarded

theorem start (cached baseline : PhaseState) :
    Guarded validator (Pipeline.start cached baseline validator) []
      (Pipeline.start cached baseline validator) where
  sound := PipelineSound.start cached baseline validator
  truly := RepliesTruly.start cached baseline validator
  configured := rfl
  approved := by
    intro submission member
    cases member
  submitted := by
    intro order member
    cases member
  refused := by
    intro requestId response replying
    cases replying

/-- What is approved after a step was so before, or has been admitted. -/
theorem step_approved (guarded : Guarded validator initial calls state)
    (registry : validator.constraints = .default)
    (run : Run PipelineStep initial calls state)
    (move : PipelineMove state call next) :
    ∀ submission ∈ call.submitting state ++ next.approved,
      submission ∈ next.posted ∧
        Admitted validator initial (calls ++ [call]) submission.1
          submission.2 := by
  intro submission member
  have old : submission ∈ state.approved →
      submission ∈ next.posted ∧
        Admitted validator initial (calls ++ [call]) submission.1
          submission.2 := by
    intro approved
    rcases guarded.approved submission approved with ⟨posted, admitted⟩
    rw [move.posted]
    exact ⟨List.mem_append_left _ posted, admitted.snoc⟩
  cases move.approval with
  | passes approved => exact old (approved ▸ member)
  | approves order team requestId currentTime now held accepted approved =>
      subst now
      rw [show PipelineCall.submitting (.validate currentTime) state = []
        from rfl, List.nil_append, approved] at member
      rcases List.mem_append.mp member with before | new
      · exact old before
      · rcases List.mem_singleton.mp new with rfl
        have deciding : Deciding validator state order team :=
          ⟨⟨requestId, held⟩, guarded.configured⟩
        have carried : (order, team) ∈ state.carried := by
          rw [Pipeline.carried, held]
          exact List.mem_append_right _
            (List.mem_append_left _ List.mem_cons_self)
        refine ⟨?_, calls, currentTime, [], state, rfl, run, deciding,
          (deciding.answersFor registry currentTime).accepted_iff.mp
            accepted⟩
        rw [move.posted]
        exact List.mem_append_left _ (guarded.sound.carried _ carried)

/-- A reply which stays keeps its reasons. -/
theorem step_replying (guarded : Guarded validator initial calls state)
    (allowed : call.Allowed state) (move : PipelineMove state call next)
    (same : next.validator = state.validator) :
    ∀ requestId response,
      next.validator = .replying requestId response →
        response.success = false →
          ∀ order team, .newOrder order team requestId ∈ next.received →
            ∃ error, response.error = some error ∧
              Barred validator initial (calls ++ [call]) order team
                error.code := by
  intro requestId response replying failed order team received
  rw [same] at replying
  have known : requestId ∈ state.received.map OrderMessage.requestId := by
    apply guarded.truly.asked
    rw [replying]
    exact List.mem_singleton_self _
  have old : .newOrder order team requestId ∈ state.received :=
    move.received_of_known allowed known received
  rcases guarded.refused requestId response replying failed order team old
    with ⟨error, told, barred⟩
  exact ⟨error, told, barred.snoc⟩

theorem step (guarded : Guarded validator initial calls state)
    (registry : validator.constraints = .default)
    (run : Run PipelineStep initial calls state)
    (allowed : call.Allowed state) (move : PipelineMove state call next) :
    Guarded validator initial (calls ++ [call]) next where
  sound := guarded.sound.step allowed move
  truly := guarded.truly.step guarded.sound allowed move
  configured := move.configured.trans guarded.configured
  approved := by
    intro submission member
    exact guarded.step_approved registry run move submission
      (List.mem_append_right _ member)
  submitted := by
    intro order member
    rw [move.submitted] at member
    rcases List.mem_append.mp member with old | new
    · rcases guarded.submitted order old with ⟨team, posted, admitted⟩
      refine ⟨team, ?_, admitted.snoc⟩
      rw [move.posted]
      exact List.mem_append_left _ posted
    · rcases List.mem_map.mp new with ⟨submission, submitting, rfl⟩
      exact ⟨submission.2, guarded.step_approved registry run move
        submission (List.mem_append_left _ submitting)⟩
  refused := by
    have stays := guarded.step_replying allowed move
    cases move with
    | @validates decided decidedTeam asked currentTime held =>
        intro requestId response replying failed order team received
        have taken := guarded.sound.mem_received held
        have named : requestId = asked :=
          (afterValidation_failed replying).1
        subst named
        cases guarded.sound.message_unique received taken rfl
        have deciding : Deciding validator state decided decidedTeam :=
          ⟨⟨requestId, held⟩, guarded.configured⟩
        exact deciding.barred registry run currentTime replying
    | counts currentTime held =>
        intro requestId response replying failed
        cases replying
        cases failed
    | @cancels orderId asked team answer held _ =>
        intro requestId response replying failed order owner received
        have taken := guarded.sound.mem_received held
        have named : requestId = asked :=
          (afterCancellation_replying replying).1
        subst named
        cases guarded.sound.message_unique received taken rfl
    | takes =>
        intro requestId response replying
        cases replying
    | forwards =>
        intro requestId response replying
        cases replying
    | replies =>
        intro requestId response replying
        cases replying
    | _ => exact stays rfl

theorem of_run (registry : validator.constraints = .default)
    {cached baseline : PhaseState}
    (run : Run PipelineStep (Pipeline.start cached baseline validator)
      calls state) :
    Guarded validator (Pipeline.start cached baseline validator) calls
      state :=
  run.induction_history
    (Guarded validator (Pipeline.start cached baseline validator))
    (start cached baseline)
    (by
      rintro history before call _ reached guarded ⟨allowed, rfl⟩
      exact guarded.step registry reached allowed
        (call.execute_moves before))

end Guarded

end Gate

/-! ## What the clients are told -/

/-- The steps of the threads so far, and what has been notified of them. -/
structure Watched (validator : ConstraintBasedOrderValidator)
    (initial : Pipeline) (history : List PipelineCall)
    (state : Application) : Prop where
  run : Run PipelineStep initial history state.pipeline
  told : ∀ notification ∈ state.responses.notifications,
    notification.response.success = false → ∀ order team,
      .newOrder order team notification.requestId ∈
          state.pipeline.received →
        ∃ error, notification.response.error = some error ∧
          Barred validator initial history order team error.code

section Watched

variable {config : CoordinationConfig} {cached baseline : PhaseState}
  {validator : ConstraintBasedOrderValidator}
  {history steps : List PipelineCall} {state next : Application}

/-- A step of the threads keeps what has been notified before. -/
theorem Watched.kept {initial : Pipeline}
    (watched : Watched validator initial history state)
    (sound : ApplicationSound config state) {call : PipelineCall}
    (allowed : call.Allowed state.pipeline)
    {notification : Notification}
    (member : notification ∈ state.responses.notifications)
    (failed : notification.response.success = false)
    {order : Order} {team : TeamInfo}
    (received : .newOrder order team notification.requestId ∈
      (call.execute state.pipeline).received) :
    ∃ error, notification.response.error = some error ∧
      Barred validator initial (history ++ [call]) order team
        error.code := by
  have known := sound.known notification member
  have old : .newOrder order team notification.requestId ∈
      state.pipeline.received :=
    (call.execute_moves state.pipeline).received_of_known allowed known
      received
  rcases watched.told notification member failed order team old with
    ⟨error, told, barred⟩
  exact ⟨error, told, barred.snoc⟩

theorem Watched.move
    (watched : Watched validator (Pipeline.start cached baseline validator)
      history state)
    (registry : validator.constraints = .default)
    (sound : ApplicationSound config state)
    (move : ApplicationMove state steps next) :
    Watched validator (Pipeline.start cached baseline validator)
      (history ++ steps) next := by
  cases sound.progress move with
  | idles pipeline silent =>
      rw [List.append_nil]
      constructor
      · exact pipeline ▸ watched.run
      · rw [silent, pipeline]
        exact watched.told
  | advances call allowed _ pipeline silent =>
      constructor
      · rw [pipeline]
        exact watched.run.snoc ⟨allowed, rfl⟩
      · rw [silent, pipeline]
        intro notification member failed order team received
        exact watched.kept sound allowed member failed received
  | replies notification replying pipeline notified =>
      constructor
      · rw [pipeline]
        exact watched.run.snoc ⟨PipelineCall.allowed_reply, rfl⟩
      · rw [notified, pipeline]
        intro other member failed order team received
        rcases List.mem_append.mp member with old | new
        · exact watched.kept sound PipelineCall.allowed_reply old failed
            received
        · rcases List.mem_singleton.mp new with rfl
          have guarded := Guarded.of_run registry watched.run
          have asked : .newOrder order team other.requestId ∈
              state.pipeline.received := by
            rw [(PipelineCall.execute_moves .reply
              state.pipeline).received] at received
            simpa only [PipelineCall.messages, List.append_nil]
              using received
          rcases guarded.refused _ _ replying failed order team asked with
            ⟨error, told, barred⟩
          exact ⟨error, told, barred.snoc⟩

/-- The threads are watched in every run, by the steps they take in it. -/
theorem Watched.of_run (registry : validator.constraints = .default)
    {calls : List ApplicationCall}
    (run :
      Run ApplicationStep
        (Application.start config cached baseline validator) calls state) :
    Watched validator (Pipeline.start cached baseline validator)
      ((Application.start config cached baseline validator).threadCalls
        calls) state := by
  have both := run.induction_history
    (fun history reached => ApplicationSound config reached ∧
      Watched validator (Pipeline.start cached baseline validator)
        ((Application.start config cached baseline validator).threadCalls
          history) reached)
    ⟨ApplicationSound.start config cached baseline validator,
      { run := .refl _
        told := by
          intro notification member
          cases member }⟩
    (by
      rintro history before call _ earlier ⟨sound, watched⟩ ⟨allowed, rfl⟩
      have move := ApplicationCall.execute_moves allowed
      rw [Application.threadCalls_snoc, ← earlier.eq_replay]
      exact ⟨sound.move move, watched.move registry sound move⟩)
  exact both.2

/--
No order gets past the validator: each order the exchange has taken in was
validated by an earlier step, as one of the team of its trader, and met every
constraint of the team's role in the state of this step.
-/
theorem exchange_gated (registry : validator.constraints = .default)
    {calls : List PipelineCall} {pipeline : Pipeline}
    (run : Run PipelineStep (Pipeline.start cached baseline validator)
      calls pipeline)
    {order : Order} (taken : order ∈ pipeline.venue.market.heap.orders) :
    ∃ team, team.teamId = order.traderId ∧
      Admitted validator (Pipeline.start cached baseline validator) calls
        order team := by
  have guarded := Guarded.of_run registry run
  rcases guarded.submitted order (guarded.sound.taken order taken) with
    ⟨team, posted, admitted⟩
  exact ⟨team, (guarded.sound.own (order, team) posted).1, admitted⟩

/-- A purchase of four contracts, where four are allowed. -/
theorem exchange_gated_purchase :
    ∃ team, team.teamId = Sample.buyFour.traderId ∧
      Admitted Sample.fourValidator
        (Pipeline.start (PhaseState.default .closed)
          (PhaseState.default .closed) Sample.fourValidator)
        (Sample.offered ++ Sample.accepting Sample.buyFour ++
          Sample.settling)
        Sample.buyFour team := by
  have taken : Sample.buyFour ∈
      (replay PipelineCall.execute
        (Pipeline.start (PhaseState.default .closed)
          (PhaseState.default .closed) Sample.fourValidator)
        (Sample.offered ++ Sample.accepting Sample.buyFour ++
          Sample.settling)).venue.market.heap.orders := by
    decide +kernel
  exact exchange_gated rfl (run_replay (by decide +kernel)) taken

/--
A client which is told that its order has failed is told why, unless only the
wait has failed.  Among the steps which the threads have taken in the run is
the one which validated the order, and the code of the answer is that of the
first constraint of the team's role which the order did not meet there.
-/
theorem refusal_explained (registry : validator.constraints = .default)
    {calls : List ApplicationCall}
    (run :
      Run ApplicationStep
        (Application.start config cached baseline validator) calls state)
    {caller : ℕ} {made : Option Order} {order : Order} {team : TeamInfo}
    {requestId : String} {response : ApiResponse}
    (found : state.apiCalls.get? caller =
      some
        { order := made
          stage :=
            .answered (some (.newOrder order team requestId)) response })
    (failed : response.success = false)
    (final : ¬ response.SaysWaitFailed) :
    Run PipelineStep (Pipeline.start cached baseline validator)
        ((Application.start config cached baseline validator).threadCalls
          calls)
        state.pipeline ∧
      ∃ error, response.error = some error ∧
        Barred validator (Pipeline.start cached baseline validator)
          ((Application.start config cached baseline
            validator).threadCalls calls)
          order team error.code := by
  have sound := ApplicationSound.of_run
    (ApplicationSound.start config cached baseline validator) run
  have watched := Watched.of_run registry run
  have received := sound.posts.posted caller _ _ found rfl
  refine ⟨watched.run, ?_⟩
  rcases sound.answers caller _ _ response found with
    (leftOpen | ⟨notification, member, same, rfl⟩) | ⟨exception, own⟩
  · exact absurd (Or.inl leftOpen.leavesOpen) final
  · apply watched.told notification member failed order team
    rw [same]
    exact received
  · exfalso
    apply final
    rcases sound.apart.numbered caller _ _ found rfl with
      ⟨timestamp, used, _, named⟩
    rw [own]
    apply submissionFailed_saysWaitFailed
    rw [show requestId = _ from named]
    exact formatRequestId_ne_empty _ _ _

/-- An order exceeds the position limit. -/
theorem refusal_explained_limit :
    Barred Sample.fourValidator
      (Pipeline.start (PhaseState.default .closed)
        (PhaseState.default .closed) Sample.fourValidator)
      (Sample.limitStart.threadCalls Sample.overLimit)
      Sample.buyTooMany Sample.buyingTeam "MM_POS_LIMIT" := by
  rcases refusal_explained rfl (run_replay (by decide +kernel))
      Sample.overLimit_rejected rfl (by decide +kernel) with
    ⟨_, error, told, barred⟩
  cases told
  exact barred

end Watched

end InternTradingGame
