import InternTradingGame.Api.FailedSubmission
import InternTradingGame.Api.Promises

/-!
# The answers of the order endpoints

A client is answered under the id of its own request, and when the answer is
a success it is true.  The requests are answered once and in the order in
which they were received, no order is lost on the way, and a cancel which is
confirmed is final.

The API calls and the threads take their steps in any order, but a call of
the exchange is one step.  The exchange has no lock of its own: a cancel
which comes between the look at the first order of a level and the trade with
it, in the middle of a submission, is not covered.
-/

namespace InternTradingGame

open Effects Sequences

/-! ## Progress -/

/--
What the steps of a move do to the threads and to the record of
notifications.
-/
inductive ApplicationProgress (state : Application) :
    List PipelineCall → Application → Prop where
  | idles {next : Application}
      (pipeline : next.pipeline = state.pipeline)
      (silent :
        next.responses.notifications = state.responses.notifications) :
      ApplicationProgress state [] next
  | advances {next : Application} (call : PipelineCall)
      (allowed : call.Allowed state.pipeline)
      (unanswered : call.answering state.pipeline = [])
      (pipeline : next.pipeline = call.execute state.pipeline)
      (silent :
        next.responses.notifications = state.responses.notifications) :
      ApplicationProgress state [call] next
  | replies {next : Application} (notification : Notification)
      (replying :
        state.pipeline.validator =
          .replying notification.requestId notification.response)
      (pipeline :
        next.pipeline = PipelineCall.execute .reply state.pipeline)
      (notified :
        next.responses.notifications =
          state.responses.notifications ++ [notification]) :
      ApplicationProgress state [.reply] next

section Progress

variable {config : CoordinationConfig} {state next : Application}
  {steps : List PipelineCall}

theorem PipelineCall.Internal.allowed {call : PipelineCall}
    (internal : call.Internal) (pipeline : Pipeline) :
    call.Allowed pipeline := by
  cases call with
  | post message => exact internal.elim
  | _ => trivial

theorem PipelineCall.Internal.answering {call : PipelineCall}
    (internal : call.Internal) (pipeline : Pipeline) :
    call.answering pipeline = [] := by
  cases call with
  | reply => exact internal.elim
  | _ => rfl

/-- Every move makes progress in one of three ways. -/
theorem ApplicationSound.progress (sound : ApplicationSound config state)
    (move : ApplicationMove state steps next) :
    ApplicationProgress state steps next := by
  cases move with
  | enqueues caller order message found =>
      exact .advances (.post message) (sound.post_allowed found) rfl rfl rfl
  | awaits caller order message now found =>
      refine .idles rfl ?_
      apply notifications_of_internal
      intro _ _ _ _ isNotify
      cases isNotify
  | replies requestId response orderId now replying =>
      exact .replies ⟨requestId, response, orderId, _⟩ replying rfl rfl
  | coordinates call internal =>
      refine .idles rfl ?_
      apply notifications_of_internal
      rintro _ _ _ _ rfl
      exact internal
  | threads call internal =>
      exact .advances call (internal.allowed _) (internal.answering _) rfl
        rfl
  | _ => exact .idles rfl rfl

end Progress

/-! ## Orders and their places -/

namespace Application

/-- The order is in a message which the validator thread has not decided. -/
def Waits (state : Application) (order : Order) (team : TeamInfo)
    (requestId : String) : Prop :=
  .newOrder order team requestId ∈
    state.pipeline.validator.holding ++ state.pipeline.orderQueue

/-- The validator thread answers a request, or has answered it. -/
def Tells (state : Application) (requestId : String)
    (response : ApiResponse) : Prop :=
  state.pipeline.validator = .replying requestId response ∨
    ∃ notification ∈ state.responses.notifications,
      notification.requestId = requestId ∧
        notification.response = response

/-- The order is withheld, and its request is answered with a failure. -/
def TurnsAway (state : Application) (order : Order)
    (requestId : String) : Prop :=
  Refused order.orderId state.pipeline ∧
    ∃ response, response.success = false ∧ state.Tells requestId response

/-- An order has exactly one of three places. -/
structure Places (state : Application) (order : Order) (team : TeamInfo)
    (requestId : String) : Prop where
  somewhere :
    state.Waits order team requestId ∨ order ∈ state.pipeline.matched ∨
      state.TurnsAway order requestId
  waitsOnly : state.Waits order team requestId →
    order ∉ state.pipeline.matched ∧ ¬ state.TurnsAway order requestId
  matchedOnly : order ∈ state.pipeline.matched →
    ¬ state.TurnsAway order requestId

end Application

section Places

variable {config : CoordinationConfig} {state : Application}
  {order : Order} {team : TeamInfo} {requestId : String}
  {response : ApiResponse}

/-- The orders which wait stand behind those which are matched. -/
theorem PipelineSound.nodup_places {pipeline : Pipeline}
    (sound : PipelineSound pipeline) :
    (pipeline.matched.map Order.orderId ++
      (((pipeline.validator.holding ++ pipeline.orderQueue).flatMap
        OrderMessage.submissions).map Prod.fst).map
          Order.orderId).Nodup := by
  have ids := (sound.inOrder.map Order.orderId).nodup sound.distinct
  simpa only [Pipeline.matched, Pipeline.carried,
    ValidatorState.submissions_eq, List.map_append, List.flatMap_append,
    List.append_assoc] using ids

/-- A failure of the validator thread is only told where it is due. -/
theorem ApplicationSound.refuses_of_tells
    (sound : ApplicationSound config state)
    (tells : state.Tells requestId response)
    (failed : response.success = false) :
    state.pipeline.Refuses requestId := by
  rcases tells with replying | ⟨notification, member, rfl, rfl⟩
  · exact sound.truly.refuses requestId response replying failed
  · exact sound.refuses notification member failed

/-- What has a place has no other one. -/
theorem ApplicationSound.places (sound : ApplicationSound config state)
    (somewhere :
      state.Waits order team requestId ∨ order ∈ state.pipeline.matched ∨
        state.TurnsAway order requestId) :
    state.Places order team requestId where
  somewhere := somewhere
  waitsOnly := by
    intro waits
    have submitted : (order, team) ∈
        (state.pipeline.validator.holding ++
          state.pipeline.orderQueue).flatMap OrderMessage.submissions :=
      List.mem_flatMap.mpr ⟨_, waits, List.mem_singleton_self _⟩
    constructor
    · intro matched
      apply (List.nodup_append.mp sound.pipeline.nodup_places).2.2
      · exact List.mem_map_of_mem matched
      · exact List.mem_map_of_mem (List.mem_map_of_mem submitted)
      · rfl
    · rintro ⟨refused, _⟩
      apply refused.withheld.uncarried (order, team) ?_ rfl
      rw [Pipeline.carried, ValidatorState.submissions_eq,
        ← List.flatMap_append]
      exact List.mem_append_right _ submitted
  matchedOnly := by
    rintro matched ⟨refused, _⟩
    exact refused.withheld.unmatched order matched rfl

end Places

/-! ## What every move keeps -/

/-- What the clients can rely on, in every state. -/
structure Delivers (config : CoordinationConfig) (state : Application) :
    Prop where
  sound : ApplicationSound config state
  promises : KeepsPromises state.pipeline
  inOrder :
    state.pipeline.received.map OrderMessage.requestId =
      state.responses.notifications.map Notification.requestId ++
        state.pipeline.requestsInHand
  honours : ∀ notification ∈ state.responses.notifications,
    state.pipeline.Honours notification.requestId notification.response
  somewhere : ∀ order team requestId,
    .newOrder order team requestId ∈ state.pipeline.received →
      state.Waits order team requestId ∨ order ∈ state.pipeline.matched ∨
        state.TurnsAway order requestId

namespace Delivers

variable {config : CoordinationConfig} {state next : Application}
  {steps : List PipelineCall}
  {requestId : String} {response : ApiResponse}

theorem start (config : CoordinationConfig)
    (cached baseline : PhaseState)
    (validator : ConstraintBasedOrderValidator) :
    Delivers config
      (Application.start config cached baseline validator) where
  sound := ApplicationSound.start config cached baseline validator
  promises := KeepsPromises.start cached baseline validator
  inOrder := rfl
  honours := by
    intro notification member
    cases member
  somewhere := by
    intro order team requestId member
    cases member

/-- What has been notified stays honoured when a thread moves on. -/
theorem honours_step (delivers : Delivers config state)
    {call : PipelineCall} (allowed : call.Allowed state.pipeline) :
    ∀ notification ∈ state.responses.notifications,
      (call.execute state.pipeline).Honours notification.requestId
        notification.response := by
  intro notification member
  exact (delivers.honours notification member).step
    (delivers.sound.known notification member) delivers.sound.pipeline
    allowed (call.execute_moves state.pipeline)

/-- A response stays told when a step answers it or answers nothing. -/
theorem tells_step {call : PipelineCall}
    (tells : state.Tells requestId response)
    (unanswered : call.answering state.pipeline = [])
    (pipeline : next.pipeline = call.execute state.pipeline)
    (silent :
      next.responses.notifications = state.responses.notifications) :
    next.Tells requestId response := by
  rcases tells with replying | told
  · left
    rw [pipeline]
    have move := call.execute_moves state.pipeline
    revert move
    generalize call.execute state.pipeline = after
    intro move
    cases move with
    | takes validator _ => cases validator.symm.trans replying
    | validates _ validator => cases validator.symm.trans replying
    | forwards validator => cases validator.symm.trans replying
    | counts _ validator => cases validator.symm.trans replying
    | cancels _ validator _ => cases validator.symm.trans replying
    | replies validator =>
        rw [PipelineCall.answering, validator] at unanswered
        cases unanswered
    | _ => exact replying
  · right
    rw [silent]
    exact told

/-- A message which has just been put on the order queue waits. -/
theorem somewhere_received (delivers : Delivers config state)
    {call : PipelineCall} {order : Order} {team : TeamInfo}
    (received : .newOrder order team requestId ∈
      (call.execute state.pipeline).received) :
    (.newOrder order team requestId ∈
        (call.execute state.pipeline).orderQueue) ∨
      state.Waits order team requestId ∨
        order ∈ state.pipeline.matched ∨
          state.TurnsAway order requestId := by
  rw [(call.execute_moves state.pipeline).received] at received
  rcases List.mem_append.mp received with old | new
  · exact Or.inr (delivers.somewhere order team requestId old)
  · cases call with
    | post message =>
        left
        rcases List.mem_singleton.mp new with rfl
        exact List.mem_concat_self
    | _ => cases new

/-- A thread takes a step and answers nothing. -/
theorem advances (delivers : Delivers config state)
    (sound : ApplicationSound config next) {call : PipelineCall}
    (allowed : call.Allowed state.pipeline)
    (unanswered : call.answering state.pipeline = [])
    (pipeline : next.pipeline = call.execute state.pipeline)
    (silent :
      next.responses.notifications = state.responses.notifications) :
    Delivers config next where
  sound := sound
  promises := by
    rw [pipeline]
    exact delivers.promises.step delivers.sound.truly
      delivers.sound.pipeline allowed (call.execute_moves state.pipeline)
  inOrder := by
    have move := call.execute_moves state.pipeline
    rw [pipeline, silent, move.received, move.requestsInHand unanswered,
      List.map_append, delivers.inOrder, List.append_assoc]
  honours := by
    rw [pipeline, silent]
    exact delivers.honours_step allowed
  somewhere := by
    intro order team requestId received
    have move := call.execute_moves state.pipeline
    rw [pipeline] at received
    rcases delivers.somewhere_received received with
      queued | waits | matched | ⟨_, response, failed, tells⟩
    · left
      rw [Application.Waits, pipeline]
      exact List.mem_append_right _ queued
    · rcases move.holding waits with held | matched |
        ⟨response, replying, failed⟩
      · left
        rw [Application.Waits, pipeline]
        exact held
      · right
        left
        rw [pipeline]
        exact matched
      · right
        right
        have tells : next.Tells requestId response :=
          Or.inl (pipeline ▸ replying)
        refine ⟨?_, response, failed, tells⟩
        exact sound.refuses_of_tells tells failed _
          (pipeline ▸ received) rfl _ (List.mem_singleton_self _)
    · right
      left
      rw [pipeline]
      exact move.matched matched
    · right
      right
      have told := tells_step tells unanswered pipeline silent
      refine ⟨?_, response, failed, told⟩
      exact sound.refuses_of_tells told failed _ (pipeline ▸ received)
        rfl _ (List.mem_singleton_self _)

/-- What has been told stays told when the thread replies. -/
theorem tells_reply {notification : Notification}
    (tells : state.Tells requestId response)
    (replying :
      state.pipeline.validator =
        .replying notification.requestId notification.response)
    (notified :
      next.responses.notifications =
        state.responses.notifications ++ [notification]) :
    next.Tells requestId response := by
  right
  rw [notified]
  rcases tells with here | ⟨earlier, member, same⟩
  · cases replying.symm.trans here
    exact ⟨notification, List.mem_concat_self, rfl, rfl⟩
  · exact ⟨earlier, List.mem_append_left _ member, same⟩

/-- The validator thread replies. -/
theorem replies (delivers : Delivers config state)
    (sound : ApplicationSound config next) {notification : Notification}
    (replying :
      state.pipeline.validator =
        .replying notification.requestId notification.response)
    (pipeline :
      next.pipeline = PipelineCall.execute .reply state.pipeline)
    (notified :
      next.responses.notifications =
        state.responses.notifications ++ [notification]) :
    Delivers config next := by
  have allowed : PipelineCall.Allowed .reply state.pipeline :=
    PipelineCall.allowed_reply
  have move := PipelineCall.execute_moves .reply state.pipeline
  have received : next.pipeline.received = state.pipeline.received := by
    rw [pipeline, move.received]
    exact List.append_nil _
  constructor
  · exact sound
  · rw [pipeline]
    exact delivers.promises.step delivers.sound.truly
      delivers.sound.pipeline allowed move
  · rw [received, delivers.inOrder, notified, pipeline,
      Pipeline.requestsInHand_reply replying, List.map_append,
      List.append_assoc]
    rfl
  · intro told member
    rw [notified] at member
    rw [pipeline]
    rcases List.mem_append.mp member with old | new
    · exact delivers.honours_step allowed told old
    · rcases List.mem_singleton.mp new with rfl
      apply (delivers.promises.replies _ _ replying).step ?_
        delivers.sound.pipeline allowed move
      apply delivers.sound.truly.asked
      rw [replying]
      exact List.mem_singleton_self _
  · intro order team requestId member
    rw [received] at member
    rcases delivers.somewhere order team requestId member with
      waits | matched | ⟨_, response, failed, tells⟩
    · left
      rw [Application.Waits, replying] at waits
      rw [Application.Waits, pipeline]
      show _ ∈ state.pipeline.reply.validator.holding ++
        state.pipeline.reply.orderQueue
      rw [Pipeline.reply, replying]
      exact waits
    · right
      left
      rw [pipeline]
      exact move.matched matched
    · right
      right
      have told := tells_reply tells replying notified
      refine ⟨?_, response, failed, told⟩
      exact sound.refuses_of_tells told failed _ (received ▸ member) rfl
        _ (List.mem_singleton_self _)

/-- Every move keeps what the clients rely on. -/
theorem move (delivers : Delivers config state)
    (move : ApplicationMove state steps next) : Delivers config next := by
  have sound := delivers.sound.move move
  cases delivers.sound.progress move with
  | idles pipeline silent =>
      have tells : ∀ {requestId response},
          state.Tells requestId response →
            next.Tells requestId response := by
        intro requestId response tells
        rw [Application.Tells, pipeline, silent]
        exact tells
      constructor
      · exact sound
      · exact pipeline ▸ delivers.promises
      · rw [pipeline, silent]
        exact delivers.inOrder
      · rw [pipeline, silent]
        exact delivers.honours
      · intro order team requestId received
        rw [pipeline] at received
        rw [Application.Waits, Application.TurnsAway, pipeline]
        rcases delivers.somewhere order team requestId received with
          waits | matched | ⟨refused, response, failed, told⟩
        · exact Or.inl waits
        · exact Or.inr (Or.inl matched)
        · exact Or.inr (Or.inr ⟨refused, response, failed, tells told⟩)
  | advances call allowed unanswered pipeline silent =>
      exact delivers.advances sound allowed unanswered pipeline silent
  | replies notification replying pipeline notified =>
      exact delivers.replies sound replying pipeline notified

/-- Every state of every run delivers. -/
theorem of_run {start : Application} {calls : List ApplicationCall}
    (delivers : Delivers config start)
    (run : Run ApplicationStep start calls state) :
    Delivers config state :=
  run.invariant (Delivers config) delivers
    fun before call _ reached step => by
      rcases step with ⟨allowed, rfl⟩
      exact reached.move (ApplicationCall.execute_moves allowed)

/-- What an API call has been answered is honoured. -/
theorem answered (delivers : Delivers config state) {caller : ℕ}
    {order : Option Order} {message : OrderMessage}
    (found : state.apiCalls.get? caller =
      some { order, stage := .answered (some message) response }) :
    state.pipeline.Honours message.requestId response := by
  rcases delivers.sound.answers caller order message response found with
    (leftOpen | ⟨notification, member, same, rfl⟩) | ⟨exception, rfl⟩
  · constructor
    · exact leftOpen.named
    · intro succeeded
      cases leftOpen.failed.symm.trans succeeded
  · exact same ▸ delivers.honours notification member
  · cases message with
    | newOrder order team requestId => exact ⟨rfl, nofun⟩
    | cancelOrder orderId team requestId => exact ⟨rfl, nofun⟩

/-- What an API call has been promised has been done. -/
theorem fulfils (delivers : Delivers config state) {caller : ℕ}
    {order : Option Order} {message : OrderMessage}
    (found : state.apiCalls.get? caller =
      some { order, stage := .answered (some message) response })
    (succeeded : response.success = true) :
    state.pipeline.Fulfils response message := by
  apply (delivers.answered found).fulfils succeeded message ?_ rfl
  exact delivers.sound.posts.posted caller _ message found rfl

/-- What has been dropped is not traded in the rest of a run. -/
theorem untraded (delivers : Delivers config state) {orderId : String}
    (dropped : Dropped orderId state.pipeline)
    {calls : List ApplicationCall}
    (run : Run ApplicationStep state calls next) :
    Dropped orderId next.pipeline ∧
      NoLaterTrade orderId state.pipeline.venue next.pipeline.venue := by
  have all := run.invariant
    (fun reached => ApplicationSound config reached ∧
      Dropped orderId reached.pipeline ∧
        NoLaterTrade orderId state.pipeline.venue reached.pipeline.venue)
    ⟨delivers.sound, dropped, .refl⟩
    (by
      rintro before call _ ⟨sound, stillDropped, untraded⟩ ⟨allowed, rfl⟩
      have move := ApplicationCall.execute_moves allowed
      generalize call.threadCalls before = steps at move
      refine ⟨sound.move move, ?_⟩
      have advance : ∀ step : PipelineCall, step.Allowed before.pipeline →
          Dropped orderId (step.execute before.pipeline) ∧
            NoLaterTrade orderId state.pipeline.venue
              (step.execute before.pipeline).venue := by
        intro step stepAllowed
        rcases stillDropped.step sound.pipeline stepAllowed
            (step.execute_moves before.pipeline) with ⟨after, more⟩
        exact ⟨after, untraded.trans more⟩
      cases sound.progress move with
      | idles pipeline _ =>
          rw [pipeline]
          exact ⟨stillDropped, untraded⟩
      | advances step stepAllowed _ pipeline _ =>
          rw [pipeline]
          exact advance step stepAllowed
      | replies _ _ pipeline _ =>
          rw [pipeline]
          exact advance .reply PipelineCall.allowed_reply)
  exact all.2

end Delivers

/-! ## Answers in runs -/

namespace Sample

/-- An API call which has been notified about takes its result. -/
def returning (caller : ℕ) : List ApplicationCall :=
  [ .coordinator (.wake caller), .coordinator (.takeResult caller),
    .respond caller ]

/-- The team withdraws its offer. -/
def withdrawing : List ApplicationCall :=
  [ .cancelOrder 1 "SELL" unlimitedTeam 0 0 0, .enqueue 1,
    .awaitCompletion 1 0, .pipeline .validatorTake, .pipeline .cancel ] ++
    telling 1

end Sample

section Runs

variable {config : CoordinationConfig} {cached baseline : PhaseState}
  {validator : ConstraintBasedOrderValidator}
  {calls : List ApplicationCall} {state : Application}

/--
Whatever an API call is answered for the message it has posted carries the
id of its own request.  A success is true: the new order is on its way to
the exchange, or has reached it, and the cancelled order of the team is
dead.  Each call of the exchange is one step of the run.
-/
theorem answer_honest
    (run :
      Run ApplicationStep
        (Application.start config cached baseline validator) calls state)
    {caller : ℕ} {order : Option Order} {message : OrderMessage}
    {response : ApiResponse}
    (found : state.apiCalls.get? caller =
      some { order, stage := .answered (some message) response }) :
    response.requestId = message.requestId ∧
      (response.success = true →
        state.pipeline.Fulfils response message) := by
  have delivers := (Delivers.start config cached baseline validator).of_run
    run
  exact ⟨(delivers.answered found).named, delivers.fulfils found⟩

/-- An offer is accepted. -/
theorem answer_honest_offer :
    (replay ApplicationCall.execute Sample.limitStart
      (Sample.offering ++ Sample.returning 0)).pipeline.Fulfils
        (.succeeded "req_0_000001" "SELL")
        (.newOrder Sample.sellTen Sample.unlimitedTeam "req_0_000001") := by
  have answered : (replay ApplicationCall.execute Sample.limitStart
      (Sample.offering ++ Sample.returning 0)).apiCalls.get? 0 =
        some
          { order := some Sample.sellTen
            stage :=
              .answered
                (some (.newOrder Sample.sellTen Sample.unlimitedTeam
                  "req_0_000001"))
                (.succeeded "req_0_000001" "SELL") } := by
    decide +kernel
  exact (answer_honest (run_replay (by decide +kernel)) answered).2 rfl

/--
The requests which have been answered, the one the validator thread works on
and those on the order queue are the received ones, in the order in which
they were received, and each of them once.  Each call of the exchange is one
step of the run.
-/
theorem requests_answered_inOrder
    (run :
      Run ApplicationStep
        (Application.start config cached baseline validator) calls state) :
    state.pipeline.received.map OrderMessage.requestId =
        state.responses.notifications.map Notification.requestId ++
          state.pipeline.requestsInHand ∧
      (state.responses.notifications.map Notification.requestId ++
        state.pipeline.requestsInHand).Nodup := by
  have delivers := (Delivers.start config cached baseline validator).of_run
    run
  refine ⟨delivers.inOrder, ?_⟩
  rw [← delivers.inOrder]
  exact delivers.sound.pipeline.requests

/-- An offer has been answered, and a purchase waits. -/
theorem requests_answered_inOrder_offer :
    (replay ApplicationCall.execute Sample.limitStart
        (Sample.offering ++
          Sample.sending 1 Sample.buyRequest Sample.buyingTeam
            "BUY")).pipeline.received.map OrderMessage.requestId =
      (replay ApplicationCall.execute Sample.limitStart
          (Sample.offering ++
            Sample.sending 1 Sample.buyRequest Sample.buyingTeam
              "BUY")).responses.notifications.map Notification.requestId ++
        (replay ApplicationCall.execute Sample.limitStart
          (Sample.offering ++
            Sample.sending 1 Sample.buyRequest Sample.buyingTeam
              "BUY")).pipeline.requestsInHand :=
  (requests_answered_inOrder (run_replay (by decide +kernel))).1

/--
No order is lost: an order which has been put on the order queue waits to be
decided, is on its way to the exchange or has reached it, or is turned away
with a failure, and only one of these.  Each call of the exchange is one
step of the run.
-/
theorem newOrder_places
    (run :
      Run ApplicationStep
        (Application.start config cached baseline validator) calls state)
    {order : Order} {team : TeamInfo} {requestId : String}
    (received :
      .newOrder order team requestId ∈ state.pipeline.received) :
    state.Places order team requestId := by
  have delivers := (Delivers.start config cached baseline validator).of_run
    run
  exact delivers.sound.places (delivers.somewhere order team requestId
    received)

/-- An order exceeds a limit. -/
theorem newOrder_places_limit :
    (replay ApplicationCall.execute Sample.limitStart
      Sample.overLimit).Places Sample.buyTooMany Sample.buyingTeam
        "req_0_000001" := by
  have received :
      OrderMessage.newOrder Sample.buyTooMany Sample.buyingTeam
          "req_0_000001" ∈
        (replay ApplicationCall.execute Sample.limitStart
          Sample.overLimit).pipeline.received := by
    decide +kernel
  exact newOrder_places (run_replay (by decide +kernel)) received

/--
A cancel which has been confirmed is final: in whatever way the application
goes on, the order is not live and is not traded any more.  Each call of the
exchange is one step of the run, so the cancel does not come in the middle
of a submission which meets the order.
-/
theorem confirmedCancel_final
    (run :
      Run ApplicationStep
        (Application.start config cached baseline validator) calls state)
    {caller : ℕ} {order : Option Order} {orderId requestId : String}
    {team : TeamInfo} {response : ApiResponse}
    (found : state.apiCalls.get? caller =
      some
        { order
          stage :=
            .answered (some (.cancelOrder orderId team requestId))
              response })
    (succeeded : response.success = true)
    {later : List ApplicationCall} {finish : Application}
    (continues : Run ApplicationStep state later finish) :
    (∀ cancelled, finish.pipeline.venue.Live cancelled →
        cancelled.orderId ≠ orderId) ∧
      NoLaterTrade orderId state.pipeline.venue
        finish.pipeline.venue := by
  have delivers := (Delivers.start config cached baseline validator).of_run
    run
  rcases delivers.fulfils found succeeded with ⟨_, dropped, _⟩
  rcases delivers.untraded dropped continues with ⟨still, untraded⟩
  exact ⟨still.dead, untraded⟩

/-- An offer is withdrawn before the purchase arrives. -/
theorem confirmedCancel_final_offer :
    NoLaterTrade "SELL"
      (replay ApplicationCall.execute Sample.limitStart
        (Sample.offering ++ Sample.withdrawing)).pipeline.venue
      (replay ApplicationCall.execute
        (replay ApplicationCall.execute Sample.limitStart
          (Sample.offering ++ Sample.withdrawing))
        (Sample.sending 2 Sample.buyRequest Sample.buyingTeam "BUY" ++
          Sample.processing)).pipeline.venue := by
  have confirmed : (replay ApplicationCall.execute Sample.limitStart
      (Sample.offering ++ Sample.withdrawing)).apiCalls.get? 1 =
        some
          { order := none
            stage :=
              .answered
                (some (.cancelOrder "SELL" Sample.unlimitedTeam
                  "req_0_000002"))
                (.succeeded "req_0_000002" "SELL") } := by
    decide +kernel
  exact (confirmedCancel_final (run_replay (by decide +kernel)) confirmed
    rfl (run_replay (by decide +kernel))).2

end Runs

end InternTradingGame
