import InternTradingGame.Api.Calls
import InternTradingGame.Api.Refusals

/-!
# What holds of the application in every state

`ApplicationMove` lists what a step of an API call, of the coordinator or of
a thread can do.  Each of them keeps the requests of the calls apart, the
messages on the order queue those of the calls, and every answer explained.
-/

namespace InternTradingGame

open Effects Coordinator

/-! ## The orders of requests -/

/-- What a created order takes over from its request. -/
structure OrderRequest.Describes (request : OrderRequest)
    (team : TeamInfo) (orderId : String) (order : Order) : Prop where
  instrument : order.instrumentId = request.instrumentId
  quantity : order.quantity = request.quantity
  price : order.price = request.price
  trader : order.traderId = team.teamId
  id : order.orderId = orderId
  clientId : order.clientOrderId = request.clientOrderId

theorem Order.new_ok {instrumentId traderId orderId : String}
    {side : OrderSide} {quantity : ℚ} {price : Option ℚ}
    {clientOrderId : Option String} {order : Order}
    (created :
      Order.new instrumentId side quantity traderId price orderId
        clientOrderId = .ok order) :
    order.instrumentId = instrumentId ∧ order.side = side ∧
      order.quantity = quantity ∧ order.traderId = traderId ∧
        order.price = price ∧ order.orderId = orderId ∧
          order.clientOrderId = clientOrderId := by
  unfold Order.new at created
  split_ifs at created
  rcases Except.ok.inj created with rfl
  exact ⟨rfl, rfl, rfl, rfl, rfl, rfl, rfl⟩

theorem OrderRequest.createOrder_describes {request : OrderRequest}
    {team : TeamInfo} {orderId : String} {order : Order}
    (created : request.createOrder team orderId = .ok order) :
    request.Describes team orderId order := by
  unfold createOrder at created
  split at created
  · cases created
  · split at created
    · cases created
    · split_ifs at created
      split at created
      case h_1 accepted =>
        rcases Except.ok.inj created with rfl
        rcases Order.new_ok accepted with
          ⟨instrument, _, quantity, trader, price, id, clientId⟩
        exact ⟨instrument, quantity, price, trader, id, clientId⟩
      case h_2 => cases created

theorem whole_natCast (count : ℕ) : Whole (count : ℚ) :=
  Rat.den_natCast count

/-- A created order is asked for whole and by its team. -/
theorem OrderRequest.Describes.asks {request : OrderRequest}
    {team : TeamInfo} {orderId : String} {order : Order}
    (describes : request.Describes team orderId order)
    (requestId : String) (stage : ApiStage) :
    ApiCall.Asks { order := some order, stage }
      (.newOrder order team requestId) where
  orders := rfl
  own := by
    intro submission member
    rcases List.mem_singleton.mp member with rfl
    constructor
    · exact describes.trader.symm
    · rw [describes.quantity]
      exact whole_natCast _

theorem ApiCall.asks_cancelOrder (orderId requestId : String)
    (team : TeamInfo) (stage : ApiStage) :
    ApiCall.Asks { order := none, stage }
      (.cancelOrder orderId team requestId) where
  orders := rfl
  own := by
    intro submission member
    cases member

/-! ## What a step does -/

/-- The steps of the API calls, of the coordinator and of the threads. -/
inductive ApplicationMove (state : Application) :
    List PipelineCall → Application → Prop where
  | stays : ApplicationMove state [] state
  | fails (caller : ℕ) (order : Option Order) (response : ApiResponse)
      (new : state.apiCalls.get? caller = none)
      (fresh : FreshOrder state.apiCalls
        { order, stage := .answered none response }) :
      ApplicationMove state []
        (state.moveCall caller
          { order, stage := .answered none response })
  | registers (caller : ℕ) (order : Option Order)
      (message : OrderMessage) (teamId : String)
      (timeoutSeconds : Option ℚ) (timestamp : ℕ)
      (now registeredAt : ℚ)
      (new : state.apiCalls.get? caller = none)
      (fresh : FreshOrder state.apiCalls
        { order, stage := .registered message })
      (accepts : state.responses.coordinator.Accepts)
      (numbered : message.requestId =
        state.responses.coordinator.nextRequestId timestamp)
      (asks : ApiCall.Asks { order, stage := .registered message }
        message) :
      ApplicationMove state []
        (Application.moveCall caller
          { order, stage := .registered message }
          { state with
            responses :=
              CoordinatorCall.execute
                (.register teamId timeoutSeconds timestamp now
                  registeredAt) state.responses })
  | enqueues (caller : ℕ) (order : Option Order)
      (message : OrderMessage)
      (found : state.apiCalls.get? caller =
        some { order, stage := .registered message }) :
      ApplicationMove state [.post message]
        (Application.moveCall caller { order, stage := .waiting message }
          { state with pipeline := state.pipeline.post message })
  | awaits (caller : ℕ) (order : Option Order) (message : OrderMessage)
      (now : ℚ)
      (found : state.apiCalls.get? caller =
        some { order, stage := .waiting message }) :
      ApplicationMove state []
        { state with
          responses :=
            CoordinatorCall.execute
              (.lookup caller message.requestId none now)
              state.responses }
  | responds (caller : ℕ) (order : Option Order)
      (message : OrderMessage) (requestId : String)
      (outcome : Except PyError ResponseResult)
      (found : state.apiCalls.get? caller =
        some { order, stage := .waiting message })
      (waiter : state.responses.waiters.get? caller =
        some { requestId, state := .finished outcome }) :
      ApplicationMove state []
        (state.moveCall caller
          { order
            stage := .answered (some message) (message.respond outcome) })
  | replies (requestId : String) (response : ApiResponse)
      (orderId : Option String) (now : ℚ)
      (replying :
        state.pipeline.validator = .replying requestId response) :
      ApplicationMove state [.reply]
        { state with
          pipeline := PipelineCall.execute .reply state.pipeline
          responses :=
            CoordinatorCall.execute
              (.notify requestId response orderId now) state.responses }
  | coordinates (call : CoordinatorCall) (internal : call.Internal) :
      ApplicationMove state []
        { state with responses := call.execute state.responses }
  | threads (call : PipelineCall) (internal : call.Internal) :
      ApplicationMove state [call]
        { state with pipeline := call.execute state.pipeline }

/-- A registration is accepted, or it changes nothing. -/
theorem registerRequest_cases (state : Coordinator) (teamId : String)
    (timeoutSeconds : Option ℚ) (timestamp : ℕ)
    (now registeredAt : ℚ) :
    (state.Accepts ∧ ∃ registration next,
        registerRequest teamId timeoutSeconds timestamp now registeredAt
            state = .ok registration next ∧
          registration.requestId = state.nextRequestId timestamp) ∨
      ∃ exception,
        registerRequest teamId timeoutSeconds timestamp now registeredAt
          state = .error exception state := by
  unfold registerRequest
  rw [bind_apply, get_apply]
  dsimp only
  by_cases closing : state.shutdown = true
  · right
    rw [if_pos closing]
    exact ⟨_, rfl⟩
  · rw [if_neg closing]
    by_cases full :
        state.config.maxPendingRequests ≤ state.pendingRequests.length
    · right
      rw [if_pos full]
      exact ⟨_, rfl⟩
    · left
      rw [if_neg full]
      exact ⟨⟨Bool.eq_false_iff.mpr closing, Nat.lt_of_not_le full⟩,
        _, _, rfl, rfl⟩

namespace Application

variable {state : Application}

/-- A call registers its request, or fails and leaves the coordinator. -/
theorem register_moves {caller : ℕ} {order : Option Order}
    {message : String → OrderMessage}
    (named : ∀ requestId, (message requestId).requestId = requestId)
    (asks : ∀ requestId stage,
      ApiCall.Asks { order, stage } (message requestId))
    (new : state.apiCalls.get? caller = none)
    (fresh : ∀ stage, FreshOrder state.apiCalls { order, stage })
    (failed : PyError → ApiResponse) (teamId : String)
    (timeoutSeconds : ℚ) (timestamp : ℕ) (now registeredAt : ℚ) :
    ApplicationMove state []
      (state.register caller order message failed teamId timeoutSeconds
        timestamp now registeredAt) := by
  rw [register]
  rcases registerRequest_cases state.responses.coordinator teamId
      (some timeoutSeconds) timestamp now registeredAt with
    ⟨accepts, registration, next, answered, numbered⟩ |
      ⟨exception, answered⟩
  · have registers := ApplicationMove.registers caller order
      (message registration.requestId) teamId (some timeoutSeconds)
      timestamp now registeredAt new (fresh _) accepts
      ((named _).trans numbered) (asks _ _)
    rw [CoordinatorCall.execute, CoordinatorCall.onCoordinator, answered]
      at registers
    rw [answered]
    exact registers
  · rw [answered]
    exact .fails caller order (failed exception) new (fresh _)

/-- A new order id makes an order fresh. -/
theorem freshOrder_of_forall {order : Order} {stage : ApiStage}
    (unused : ∀ call ∈ state.apiCalls.values, ∀ other ∈ call.order,
      other.orderId ≠ order.orderId) :
    FreshOrder state.apiCalls { order := some order, stage } := by
  rintro made isOrder other otherCall otherOrder found otherMade
  rcases Option.some.inj isOrder with rfl
  apply unused otherCall ?_ otherOrder otherMade
  rw [OrderedDict.get?_eq_some_iff] at found
  exact List.mem_map_of_mem found

theorem freshOrder_none (stage : ApiStage) :
    FreshOrder state.apiCalls { order := none, stage } := by
  rintro order isOrder
  cases isOrder

end Application

/-- Every step which is allowed is one of the moves. -/
theorem ApplicationCall.execute_moves {call : ApplicationCall}
    {state : Application} (allowed : call.Allowed state) :
    ApplicationMove state (call.threadCalls state) (call.execute state) := by
  cases call with
  | submitOrder caller request team orderId timestamp now registeredAt =>
      rcases allowed with ⟨absent, unused⟩
      have new := (OrderedDict.get?_eq_none_iff _ _).mpr absent
      show ApplicationMove state [] (state.submitOrder caller request team
        orderId timestamp now registeredAt)
      rw [Application.submitOrder]
      cases created : request.createOrder team orderId with
      | error response =>
          exact .fails caller none response new
            (Application.freshOrder_none _)
      | ok order =>
          have describes := OrderRequest.createOrder_describes created
          apply Application.register_moves
          · intro requestId
            rfl
          · exact describes.asks
          · exact new
          · intro stage
            apply Application.freshOrder_of_forall
            rw [describes.id]
            exact unused
  | cancelOrder caller orderId team timestamp now registeredAt =>
      apply Application.register_moves
      · intro requestId
        rfl
      · exact fun requestId =>
          ApiCall.asks_cancelOrder orderId requestId team
      · exact (OrderedDict.get?_eq_none_iff _ _).mpr allowed
      · exact Application.freshOrder_none
  | enqueue caller =>
      show ApplicationMove state _ (state.enqueue caller)
      rw [Application.enqueue, ApplicationCall.threadCalls]
      split
      case h_1 order message found =>
        exact .enqueues caller order message found
      case h_2 => exact .stays
  | awaitCompletion caller now =>
      show ApplicationMove state [] (state.awaitCompletion caller now)
      rw [Application.awaitCompletion]
      split
      case h_1 order message found =>
        exact .awaits caller order message now found
      case h_2 => exact .stays
  | respond caller =>
      show ApplicationMove state [] (state.respond caller)
      rw [Application.respond]
      split
      case h_1 order message requestId outcome found waiter =>
        exact .responds caller order message requestId outcome found waiter
      case h_2 => exact .stays
  | reply now =>
      show ApplicationMove state _ (state.reply now)
      rw [Application.reply, ApplicationCall.threadCalls]
      split
      case h_1 requestId response replying =>
        exact .replies requestId response _ now replying
      case h_2 => exact .stays
  | coordinator call => exact .coordinates call allowed.1
  | pipeline call => exact .threads call allowed

/-! ## What every move keeps -/

theorem PipelineCall.allowed_reply {pipeline : Pipeline} :
    PipelineCall.Allowed .reply pipeline :=
  trivial

/-- What holds of the application whatever its calls have done. -/
structure ApplicationSound (config : CoordinationConfig)
    (state : Application) : Prop where
  pipeline : PipelineSound state.pipeline
  truly : RepliesTruly state.pipeline
  shape : Shape config state.responses.coordinator
  sourced : Sourced state.responses
  apart : CallsApart config state.responses.coordinator.requestCounter
    state.apiCalls
  posts : CallsPosted state.pipeline.received state.apiCalls
  waits : WaitersPosted state.responses.waiters state.apiCalls
  answers : AnswersExplained state.responses state.apiCalls
  known : ∀ notification ∈ state.responses.notifications,
    notification.requestId ∈
      state.pipeline.received.map OrderMessage.requestId
  refuses : ∀ notification ∈ state.responses.notifications,
    notification.response.success = false →
      state.pipeline.Refuses notification.requestId

namespace ApplicationSound

variable {config : CoordinationConfig} {state next : Application}
  {steps : List PipelineCall}

theorem start (config : CoordinationConfig)
    (cached baseline : PhaseState)
    (validator : ConstraintBasedOrderValidator) :
    ApplicationSound config
      (Application.start config cached baseline validator) where
  pipeline := PipelineSound.start cached baseline validator
  truly := RepliesTruly.start cached baseline validator
  shape := Shape.new config
  sourced := Sourced.start config
  apart := CallsApart.empty config
  posts := CallsPosted.empty
  waits := by
    intro caller waiter found
    cases found
  answers := by
    intro caller order message response found
    cases found
  known := by
    intro notification member
    cases member
  refuses := by
    intro notification member
    cases member

/-- The order of a message which has been received is that of a call. -/
theorem order_of_received (sound : ApplicationSound config state)
    {message : OrderMessage}
    (received : message ∈ state.pipeline.received) :
    ∃ caller call, state.apiCalls.get? caller = some call ∧
      call.stage.posted = some message ∧
        ∀ submission ∈ message.submissions,
          call.order = some submission.1 := by
  rcases sound.posts.sent message received with
    ⟨caller, call, found, posted⟩
  have asks := sound.apart.asks caller call message found
    (ApiStage.message_of_posted posted)
  exact ⟨caller, call, found, posted, fun _ member => asks.order_eq member⟩

/-- The order of a call is only received with the message of the call. -/
theorem posted_of_received (sound : ApplicationSound config state)
    {caller : ℕ} {call : ApiCall} {order : Order}
    (found : state.apiCalls.get? caller = some call)
    (made : call.order = some order)
    (received : order.orderId ∈
      state.pipeline.receivedOrders.map Order.orderId) :
    ∃ message, call.stage.posted = some message := by
  rcases List.mem_map.mp received with ⟨other, isReceived, same⟩
  rcases List.mem_map.mp isReceived with ⟨submission, posted, rfl⟩
  rcases List.mem_flatMap.mp posted with ⟨message, sent, submitted⟩
  rcases sound.order_of_received sent with
    ⟨number, otherCall, stored, isPosted, orders⟩
  have isCaller := sound.apart.orders number caller otherCall call
    submission.1 order stored found (orders submission submitted) made same
  subst isCaller
  rcases Option.some.inj (found.symm.trans stored) with rfl
  exact ⟨message, isPosted⟩

/-- What an endpoint puts on the order queue is allowed there. -/
theorem post_allowed (sound : ApplicationSound config state)
    {caller : ℕ} {order : Option Order} {message : OrderMessage}
    (found : state.apiCalls.get? caller =
      some { order, stage := .registered message }) :
    (PipelineCall.post message).Allowed state.pipeline := by
  have asks := sound.apart.asks caller _ message found rfl
  constructor
  · intro member
    rcases List.mem_map.mp member with ⟨other, received, same⟩
    rcases sound.posts.sent other received with
      ⟨number, call, stored, posted⟩
    have isCaller := sound.apart.requests number caller call _ other
      message stored found (ApiStage.message_of_posted posted) rfl same
    subst isCaller
    rcases Option.some.inj (found.symm.trans stored) with rfl
    cases posted
  · intro submission member
    refine ⟨?_, asks.own submission member⟩
    intro received
    rcases sound.posted_of_received found (asks.order_eq member)
        received with
      ⟨_, posted⟩
    cases posted

/-- What has been refused stays refused when a thread moves on. -/
theorem refuses_step (sound : ApplicationSound config state)
    {call : PipelineCall} (allowed : call.Allowed state.pipeline) :
    ∀ notification ∈ state.responses.notifications,
      notification.response.success = false →
        (call.execute state.pipeline).Refuses notification.requestId := by
  intro notification member failed
  exact (sound.refuses notification member failed).step
    (sound.known notification member) allowed
    (call.execute_moves state.pipeline)

theorem known_step (sound : ApplicationSound config state)
    (call : PipelineCall) :
    ∀ notification ∈ state.responses.notifications,
      notification.requestId ∈
        (call.execute state.pipeline).received.map
          OrderMessage.requestId := by
  intro notification member
  exact List.map_subset _
    (call.execute_moves state.pipeline).received_subset
    (sound.known notification member)

/-- A step of the coordinator which registers nothing. -/
theorem apart_execute (sound : ApplicationSound config state)
    {call : CoordinatorCall}
    (existing : ∀ teamId timeoutSeconds timestamp now registeredAt,
      call ≠ .register teamId timeoutSeconds timestamp now registeredAt) :
    CallsApart config
      (call.execute state.responses).coordinator.requestCounter
      state.apiCalls := by
  have shrinks := CoordinatorCall.shrinks_execute sound.shape existing
  rw [shrinks.counter]
  exact sound.apart

theorem answers_execute (sound : ApplicationSound config state)
    (call : CoordinatorCall) :
    AnswersExplained (call.execute state.responses) state.apiCalls :=
  sound.answers.mono (notifications_kept call state.responses)

/-- A step of the coordinator which notifies nothing. -/
theorem notifications_of_internal {call : CoordinatorCall}
    (silent : ∀ requestId response orderId now,
      call ≠ .notify requestId response orderId now)
    (responses : ResponseSystem) :
    (call.execute responses).notifications = responses.notifications := by
  rcases notifications_execute call responses with
    same | ⟨notification, now, isNotify, _⟩
  · exact same
  · exact absurd isNotify (silent _ _ _ _)

theorem fails (sound : ApplicationSound config state) {caller : ℕ}
    {order : Option Order} {response : ApiResponse}
    (new : state.apiCalls.get? caller = none)
    (fresh : FreshOrder state.apiCalls
      { order, stage := .answered none response }) :
    ApplicationSound config
      (state.moveCall caller
        { order, stage := .answered none response }) where
  pipeline := sound.pipeline
  truly := sound.truly
  shape := sound.shape
  sourced := sound.sourced
  apart := by
    apply sound.apart.add le_rfl fresh
    · intro message asked
      cases asked
    · intro message asked
      cases asked
  posts := sound.posts.add new rfl
  waits := sound.waits.add new
  answers := by
    apply sound.answers.set
    intro message response equal
    cases equal
  known := sound.known
  refuses := sound.refuses

theorem registers (sound : ApplicationSound config state) {caller : ℕ}
    {order : Option Order} {message : OrderMessage} {teamId : String}
    {timeoutSeconds : Option ℚ} {timestamp : ℕ} {now registeredAt : ℚ}
    (new : state.apiCalls.get? caller = none)
    (fresh : FreshOrder state.apiCalls
      { order, stage := .registered message })
    (accepts : state.responses.coordinator.Accepts)
    (numbered : message.requestId =
      state.responses.coordinator.nextRequestId timestamp)
    (asks : ApiCall.Asks { order, stage := .registered message } message) :
    ApplicationSound config
      (Application.moveCall caller { order, stage := .registered message }
        { state with
          responses :=
            CoordinatorCall.execute
              (.register teamId timeoutSeconds timestamp now registeredAt)
              state.responses }) where
  pipeline := sound.pipeline
  truly := sound.truly
  shape := CoordinatorCall.shape_execute sound.shape
    (.register teamId timeoutSeconds timestamp now registeredAt)
  sourced := sound.sourced.execute sound.shape
    (.register teamId timeoutSeconds timestamp now registeredAt)
  apart := by
    have applied := registerRequest_apply state.responses.coordinator
      teamId timeoutSeconds timestamp now registeredAt
    rw [if_pos accepts] at applied
    have counter : (CoordinatorCall.execute
        (.register teamId timeoutSeconds timestamp now registeredAt)
        state.responses).coordinator.requestCounter =
          state.responses.coordinator.requestCounter + 1 :=
      congrArg Coordinator.requestCounter applied
    show CallsApart config
      (CoordinatorCall.execute _ _).coordinator.requestCounter _
    rw [counter]
    apply sound.apart.add (Nat.le_succ _) fresh
    · intro other asked
      rcases Option.some.inj asked with rfl
      exact asks
    · intro other asked
      rcases Option.some.inj asked with rfl
      refine ⟨timestamp, _, Nat.lt_succ_self _, le_rfl, ?_⟩
      rw [numbered, nextRequestId, sound.shape.configured]
  posts := sound.posts.add new rfl
  waits := sound.waits.add new
  answers := by
    apply (sound.answers_execute _).set
    intro message response equal
    cases equal
  known := sound.known
  refuses := sound.refuses

theorem enqueues (sound : ApplicationSound config state) {caller : ℕ}
    {order : Option Order} {message : OrderMessage}
    (found : state.apiCalls.get? caller =
      some { order, stage := .registered message }) :
    ApplicationSound config
      (Application.moveCall caller { order, stage := .waiting message }
        { state with pipeline := state.pipeline.post message }) where
  pipeline :=
    sound.pipeline.step (sound.post_allowed found) (.posts message)
  truly :=
    sound.truly.step sound.pipeline (sound.post_allowed found)
      (.posts message)
  shape := sound.shape
  sourced := sound.sourced
  apart := sound.apart.advance found rfl rfl
  posts := sound.posts.post found rfl rfl
  waits := by
    apply sound.waits.advance found
    intro other posted
    cases posted
  answers := by
    apply sound.answers.set
    intro message response equal
    cases equal
  known := sound.known_step (.post message)
  refuses := sound.refuses_step (sound.post_allowed found)

theorem awaits (sound : ApplicationSound config state) {caller : ℕ}
    {order : Option Order} {message : OrderMessage} (now : ℚ)
    (found : state.apiCalls.get? caller =
      some { order, stage := .waiting message }) :
    ApplicationSound config
      { state with
        responses :=
          CoordinatorCall.execute
            (.lookup caller message.requestId none now)
            state.responses } where
  pipeline := sound.pipeline
  truly := sound.truly
  shape := CoordinatorCall.shape_execute sound.shape
    (.lookup caller message.requestId none now)
  sourced := sound.sourced.execute sound.shape
    (.lookup caller message.requestId none now)
  apart := sound.apart_execute (by intros; exact nofun)
  posts := sound.posts
  waits := by
    apply sound.waits.execute
    intro number requestId timeoutSeconds clock isLookup
    cases isLookup
    exact ⟨_, message, found, rfl, rfl⟩
  answers := sound.answers_execute _
  known := by
    rw [notifications_of_internal (by intros; exact nofun)]
    exact sound.known
  refuses := by
    rw [notifications_of_internal (by intros; exact nofun)]
    exact sound.refuses

theorem responds (sound : ApplicationSound config state) {caller : ℕ}
    {order : Option Order} {message : OrderMessage} {requestId : String}
    {outcome : Except PyError ResponseResult}
    (found : state.apiCalls.get? caller =
      some { order, stage := .waiting message })
    (waiter : state.responses.waiters.get? caller =
      some { requestId, state := .finished outcome }) :
    ApplicationSound config
      (state.moveCall caller
        { order
          stage := .answered (some message) (message.respond outcome) })
    where
  pipeline := sound.pipeline
  truly := sound.truly
  shape := sound.shape
  sourced := sound.sourced
  apart := sound.apart.advance found rfl rfl
  posts := sound.posts.advance found rfl
  waits := by
    apply sound.waits.advance found
    exact fun _ posted => posted
  answers := by
    apply sound.answers.set
    intro answered response equal
    cases equal
    cases outcome with
    | error exception => exact Or.inr ⟨exception, rfl⟩
    | ok result =>
        left
        rcases sound.waits caller _ waiter with
          ⟨call, asked, stored, posted, same⟩
        rcases Option.some.inj (found.symm.trans stored) with rfl
        rcases Option.some.inj posted with rfl
        have explained := sound.sourced.waiters caller _ waiter
        exact same ▸ explained
  known := sound.known
  refuses := sound.refuses

theorem replies (sound : ApplicationSound config state)
    {requestId : String} {response : ApiResponse}
    (orderId : Option String) (now : ℚ)
    (replying :
      state.pipeline.validator = .replying requestId response) :
    ApplicationSound config
      { state with
        pipeline := PipelineCall.execute .reply state.pipeline
        responses :=
          CoordinatorCall.execute
            (.notify requestId response orderId now)
            state.responses } where
  pipeline :=
    sound.pipeline.step PipelineCall.allowed_reply
      (PipelineCall.execute_moves .reply state.pipeline)
  truly :=
    sound.truly.step sound.pipeline PipelineCall.allowed_reply
      (PipelineCall.execute_moves .reply state.pipeline)
  shape := CoordinatorCall.shape_execute sound.shape
    (.notify requestId response orderId now)
  sourced := sound.sourced.execute sound.shape
    (.notify requestId response orderId now)
  apart := sound.apart_execute (by intros; exact nofun)
  posts := by
    have move := PipelineCall.execute_moves .reply state.pipeline
    show CallsPosted (PipelineCall.execute .reply _).received _
    rw [move.received]
    simpa [PipelineCall.messages] using sound.posts
  waits := sound.waits.execute _ (by intros; contradiction)
  answers := sound.answers_execute _
  known := by
    intro notification member
    rcases List.mem_append.mp member with old | new
    · exact sound.known_step .reply notification old
    · rcases List.mem_singleton.mp new with rfl
      apply List.map_subset _
        (PipelineCall.execute_moves .reply state.pipeline).received_subset
      apply sound.truly.asked
      rw [replying]
      exact List.mem_singleton_self _
  refuses := by
    intro notification member failed
    rcases List.mem_append.mp member with old | new
    · exact sound.refuses_step PipelineCall.allowed_reply notification old
        failed
    · rcases List.mem_singleton.mp new with rfl
      apply (sound.truly.refuses requestId response replying failed).step
      · apply sound.truly.asked
        rw [replying]
        exact List.mem_singleton_self _
      · exact PipelineCall.allowed_reply
      · exact PipelineCall.execute_moves .reply state.pipeline

theorem coordinates (sound : ApplicationSound config state)
    {call : CoordinatorCall} (internal : call.Internal) :
    ApplicationSound config
      { state with responses := call.execute state.responses } where
  pipeline := sound.pipeline
  truly := sound.truly
  shape := CoordinatorCall.shape_execute sound.shape call
  sourced := sound.sourced.execute sound.shape call
  apart := by
    apply sound.apart_execute
    rintro _ _ _ _ _ rfl
    exact internal
  posts := sound.posts
  waits := by
    apply sound.waits.execute
    rintro _ _ _ _ rfl
    exact internal.elim
  answers := sound.answers_execute call
  known := by
    rw [notifications_of_internal]
    · exact sound.known
    · rintro _ _ _ _ rfl
      exact internal
  refuses := by
    rw [notifications_of_internal]
    · exact sound.refuses
    · rintro _ _ _ _ rfl
      exact internal

theorem threads (sound : ApplicationSound config state)
    {call : PipelineCall} (internal : call.Internal) :
    ApplicationSound config
      { state with pipeline := call.execute state.pipeline } := by
  have allowed : call.Allowed state.pipeline := by
    cases call with
    | post message => exact internal.elim
    | _ => trivial
  have silent : call.messages = [] := by
    cases call with
    | post message => exact internal.elim
    | _ => rfl
  have move := call.execute_moves state.pipeline
  constructor
  · exact sound.pipeline.step allowed move
  · exact sound.truly.step sound.pipeline allowed move
  · exact sound.shape
  · exact sound.sourced
  · exact sound.apart
  · show CallsPosted (call.execute state.pipeline).received state.apiCalls
    rw [move.received, silent, List.append_nil]
    exact sound.posts
  · exact sound.waits
  · exact sound.answers
  · exact sound.known_step call
  · exact sound.refuses_step allowed

/-- Every move keeps the application sound. -/
theorem move (sound : ApplicationSound config state)
    (move : ApplicationMove state steps next) :
    ApplicationSound config next := by
  cases move with
  | stays => exact sound
  | fails caller order response new fresh => exact sound.fails new fresh
  | registers caller order message teamId timeoutSeconds timestamp now
      registeredAt new fresh accepts numbered asks =>
      exact sound.registers new fresh accepts numbered asks
  | enqueues caller order message found => exact sound.enqueues found
  | awaits caller order message now found => exact sound.awaits now found
  | responds caller order message requestId outcome found waiter =>
      exact sound.responds found waiter
  | replies requestId response orderId now replying =>
      exact sound.replies orderId now replying
  | coordinates call internal => exact sound.coordinates internal
  | threads call internal => exact sound.threads internal

/-- Every state of every run is sound. -/
theorem of_run {start : Application} {calls : List ApplicationCall}
    (sound : ApplicationSound config start)
    (run : Run ApplicationStep start calls state) :
    ApplicationSound config state :=
  run.invariant (ApplicationSound config) sound
    fun before call _ reached step => by
      rcases step with ⟨allowed, rfl⟩
      exact reached.move (ApplicationCall.execute_moves allowed)

end ApplicationSound

end InternTradingGame
