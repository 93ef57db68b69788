import InternTradingGame.Api.Delivery
import InternTradingGame.Game.Registry

/-!
# Requests with API keys

The server looks up the team of every request by its API key, and hands the
request to the application as one of this team.  Teams may register at any
time; their positions are initialized next to the running threads.

What a key may do follows from what the parts guarantee: the registry tells
the teams apart, and the application books an order to the team which has
sent it.  Steps of different threads interleave in any way, with every call
of the exchange as one step.
-/

namespace InternTradingGame

open Effects

/-! ## Initializing positions -/

/-- `initialize_team`, while the threads run. -/
def Pipeline.initializeTeam (teamId : String) (state : Pipeline) :
    Pipeline :=
  { state with positions := state.positions.initializeTeam teamId }

/-- A new team has an empty table of positions. -/
def Application.initializeTeam (teamId : String) (state : Application) :
    Application :=
  { state with pipeline := state.pipeline.initializeTeam teamId }

section Initialize

variable {pipeline : Pipeline} {teamId orderId requestId : String}
  {response : ApiResponse} {config : CoordinationConfig}
  {state : Application}

theorem PipelineSound.initializeTeam (sound : PipelineSound pipeline) :
    PipelineSound (pipeline.initializeTeam teamId) where
  venue := sound.venue
  taken := sound.taken
  inOrder := sound.inOrder
  distinct := sound.distinct
  requests := sound.requests
  own := sound.own
  carried := sound.carried
  queued := sound.queued

theorem Refused.initializeTeam (refused : Refused orderId pipeline) :
    Refused orderId (pipeline.initializeTeam teamId) where
  received := refused.received
  withheld :=
    { uncarried := refused.withheld.uncarried
      unsubmitted := refused.withheld.unsubmitted }

theorem Pipeline.Refuses.initializeTeam
    (refuses : pipeline.Refuses requestId) :
    (pipeline.initializeTeam teamId).Refuses requestId :=
  fun message received named submission member =>
    (refuses message received named submission member).initializeTeam

theorem RepliesTruly.initializeTeam (truly : RepliesTruly pipeline) :
    RepliesTruly (pipeline.initializeTeam teamId) where
  asked := truly.asked
  refuses requestId response replying failed :=
    (truly.refuses requestId response replying failed).initializeTeam

theorem Pipeline.Honours.initializeTeam
    (honours : pipeline.Honours requestId response) :
    (pipeline.initializeTeam teamId).Honours requestId response where
  named := honours.named
  fulfils := by
    intro succeeded message received named
    have fulfils := honours.fulfils succeeded message received named
    cases message with
    | newOrder order team requestId => exact fulfils
    | cancelOrder orderId team requestId =>
        rcases fulfils with ⟨same, dropped, ordered⟩
        exact ⟨same, ⟨dropped.received, dropped.uncarried, dropped.dead⟩,
          ordered⟩

theorem KeepsPromises.initializeTeam (promises : KeepsPromises pipeline) :
    KeepsPromises (pipeline.initializeTeam teamId) where
  holding := promises.holding
  forwarded := promises.forwarded
  replies requestId response replying :=
    (promises.replies requestId response replying).initializeTeam

theorem ApplicationSound.initializeTeam
    (sound : ApplicationSound config state) :
    ApplicationSound config (state.initializeTeam teamId) where
  pipeline := sound.pipeline.initializeTeam
  truly := sound.truly.initializeTeam
  shape := sound.shape
  sourced := sound.sourced
  apart := sound.apart
  posts := sound.posts
  waits := sound.waits
  answers := sound.answers
  known := sound.known
  refuses notification member failed :=
    (sound.refuses notification member failed).initializeTeam

/-- The clients rely on nothing which has to do with positions. -/
theorem Delivers.initializeTeam (delivers : Delivers config state) :
    Delivers config (state.initializeTeam teamId) where
  sound := delivers.sound.initializeTeam
  promises := delivers.promises.initializeTeam
  inOrder := delivers.inOrder
  honours notification member :=
    (delivers.honours notification member).initializeTeam
  somewhere := by
    intro order team requestId received
    rcases delivers.somewhere order team requestId received with
      waits | matched | ⟨refused, response, failed, tells⟩
    · exact Or.inl waits
    · exact Or.inr (Or.inl matched)
    · exact Or.inr (Or.inr
        ⟨refused.initializeTeam, response, failed, tells⟩)

end Initialize

/-! ## The server -/

/--
The registry and the application, and for every API call the key in its
header.
-/
structure Server where
  game : GameService
  application : Application
  keys : OrderedDict ℕ (Option String)

/-- A request of a client, or a step of a request or a thread. -/
inductive ServerCall where
  | registerTeam (call : RegistryCall)
  | submitOrder (caller : ℕ) (apiKey : Option String)
      (request : OrderRequest) (orderId : String) (timestamp : ℕ)
      (now registeredAt : ℚ)
  | cancelOrder (caller : ℕ) (apiKey : Option String) (orderId : String)
      (timestamp : ℕ) (now registeredAt : ℚ)
  | application (call : ApplicationCall)

/-- The call starts no API call. -/
def ApplicationCall.Continues : ApplicationCall → Prop
  | submitOrder _ _ _ _ _ _ _ => False
  | cancelOrder _ _ _ _ _ _ => False
  | _ => True

instance (call : ApplicationCall) : Decidable call.Continues := by
  rcases call
  case submitOrder _ _ _ _ _ _ _ => exact inferInstanceAs (Decidable False)
  case cancelOrder _ _ _ _ _ _ => exact inferInstanceAs (Decidable False)
  all_goals exact inferInstanceAs (Decidable True)

namespace Server

/-- The server as it starts: no teams, no requests and an empty exchange. -/
def start (config : CoordinationConfig) (cached baseline : PhaseState)
    (validator : ConstraintBasedOrderValidator) : Server where
  game := GameService.new
  application := Application.start config cached baseline validator
  keys := ∅

/-- `register_team`: a team which is added gets its positions. -/
def registerTeam (call : RegistryCall) (server : Server) : Server :=
  match
      GameEndpoints.registerTeam call.registration call.token
        server.game with
  | (.ok team, game) =>
      { server with
        game
        application := server.application.initializeTeam team.teamId }
  | (.error _, game) => { server with game }

/-- A request is one of the team of its key, or is turned down. -/
def request (caller : ℕ) (apiKey : Option String)
    (call : TeamInfo → ApplicationCall) (server : Server) : Server :=
  match getCurrentTeam apiKey server.game with
  | .ok team =>
      { server with
        application := (call team.info).execute server.application
        keys := server.keys.set caller apiKey }
  | .error _ => server

end Server

namespace ServerCall

/--
The effect of a step.  A request is looked at only after its key has been
found.
-/
def execute : ServerCall → Server → Server
  | .registerTeam call, server => server.registerTeam call
  | .submitOrder caller apiKey request orderId timestamp now registeredAt,
      server =>
      server.request caller apiKey fun team =>
        .submitOrder caller request team orderId timestamp now registeredAt
  | .cancelOrder caller apiKey orderId timestamp now registeredAt,
      server =>
      server.request caller apiKey fun team =>
        .cancelOrder caller orderId team timestamp now registeredAt
  | .application call, server =>
      { server with application := call.execute server.application }

/-- Tokens, order ids and the numbers of the API calls are new. -/
def Allowed : ServerCall → Server → Prop
  | .registerTeam call, server => call.Allowed server.game
  | .submitOrder caller _ _ orderId _ _ _, server =>
      ¬ server.application.apiCalls.Contains caller ∧
        ∀ call ∈ server.application.apiCalls.values,
          ∀ order ∈ call.order, order.orderId ≠ orderId
  | .cancelOrder caller _ _ _ _ _, server =>
      ¬ server.application.apiCalls.Contains caller
  | .application call, server =>
      call.Continues ∧ call.Allowed server.application

instance (call : ServerCall) (server : Server) :
    Decidable (call.Allowed server) := by
  rcases call
  case registerTeam call =>
      exact inferInstanceAs (Decidable (call.Allowed server.game))
  case submitOrder caller apiKey request orderId timestamp now
      registeredAt =>
      exact inferInstanceAs (Decidable (_ ∧ _))
  case cancelOrder caller apiKey orderId timestamp now registeredAt =>
      exact inferInstanceAs
        (Decidable (¬ server.application.apiCalls.Contains caller))
  case application call => exact inferInstanceAs (Decidable (_ ∧ _))

end ServerCall

/-- One step of the server. -/
abbrev ServerStep : Server → ServerCall → Server → Prop :=
  GuardedStep ServerCall.Allowed ServerCall.execute

/-! ## The calls and their teams -/

/-- The team a message comes from. -/
def OrderMessage.team : OrderMessage → TeamInfo
  | newOrder _ team _ => team
  | cancelOrder _ team _ => team

/-- Whatever the call has registered is of the team. -/
def ApiCall.Of (call : ApiCall) (team : TeamInfo) : Prop :=
  ∀ message, call.stage.message = some message → message.team = team

/-- The first call is the second one, further on. -/
structure ApiCall.Follows (next call : ApiCall) : Prop where
  order : next.order = call.order
  message : next.stage.message = call.stage.message

/-- A call has been added for the team. -/
def Application.Starts (caller : ℕ) (team : TeamInfo)
    (state next : Application) : Prop :=
  ∃ call : ApiCall, call.Of team ∧
    next.apiCalls = state.apiCalls.set caller call

section Starting

variable {caller : ℕ} {team : TeamInfo} {state : Application}

theorem Application.register_starts {order : Option Order}
    {message : String → OrderMessage} {failed : PyError → ApiResponse}
    (isTeam : ∀ requestId, (message requestId).team = team)
    (timeoutSeconds : ℚ) (timestamp : ℕ) (now registeredAt : ℚ) :
    Starts caller team state
      (state.register caller order message failed team.teamId
        timeoutSeconds timestamp now registeredAt) := by
  rw [Application.register]
  split
  case h_1 registration coordinator _ =>
    refine ⟨_, ?_, rfl⟩
    rintro sent isMessage
    rcases Option.some.inj isMessage with rfl
    exact isTeam registration.requestId
  case h_2 exception coordinator _ =>
    refine ⟨_, ?_, rfl⟩
    rintro sent isMessage
    cases isMessage

theorem Application.submitOrder_starts (request : OrderRequest)
    (orderId : String) (timestamp : ℕ) (now registeredAt : ℚ) :
    Starts caller team state
      (state.submitOrder caller request team orderId timestamp now
        registeredAt) := by
  rw [Application.submitOrder]
  cases request.createOrder team orderId with
  | error response =>
      refine ⟨_, ?_, rfl⟩
      rintro sent isMessage
      cases isMessage
  | ok order =>
      apply register_starts
      intro requestId
      rfl

theorem Application.cancelOrder_starts (orderId : String)
    (timestamp : ℕ) (now registeredAt : ℚ) :
    Starts caller team state
      (state.cancelOrder caller orderId team timestamp now
        registeredAt) := by
  apply register_starts
  intro requestId
  rfl

end Starting

/-- A step which starts no call moves the calls on. -/
theorem ApplicationCall.Continues.follows {call : ApplicationCall}
    (continues : call.Continues) (state : Application) (caller : ℕ)
    (next : ApiCall)
    (found : (call.execute state).apiCalls.get? caller = some next) :
    ∃ before, state.apiCalls.get? caller = some before ∧
      next.Follows before := by
  have moves : ∀ (other : ℕ) (before moved : ApiCall),
      state.apiCalls.get? other = some before → moved.Follows before →
        (state.apiCalls.set other moved).get? caller = some next →
          ∃ before, state.apiCalls.get? caller = some before ∧
            next.Follows before := by
    intro other before moved stored follows isNext
    rw [OrderedDict.get?_set] at isNext
    split_ifs at isNext with same
    · subst same
      exact ⟨before, stored, Option.some.inj isNext ▸ follows⟩
    · exact ⟨next, isNext, rfl, rfl⟩
  have stays : state.apiCalls.get? caller = some next →
      ∃ before, state.apiCalls.get? caller = some before ∧
        next.Follows before := by
    intro isNext
    exact ⟨next, isNext, rfl, rfl⟩
  cases call with
  | submitOrder => cases continues
  | cancelOrder => cases continues
  | enqueue other =>
      revert found
      show (state.enqueue other).apiCalls.get? caller = some next → _
      rw [Application.enqueue]
      split
      case h_1 order message stored =>
        exact moves other _ _ stored ⟨rfl, rfl⟩
      case h_2 => exact stays
  | awaitCompletion other now =>
      revert found
      show (state.awaitCompletion other now).apiCalls.get? caller =
        some next → _
      rw [Application.awaitCompletion]
      split
      case h_1 => exact stays
      case h_2 => exact stays
  | respond other =>
      revert found
      show (state.respond other).apiCalls.get? caller = some next → _
      rw [Application.respond]
      split
      case h_1 order message _ outcome stored _ =>
        exact moves other _ _ stored ⟨rfl, rfl⟩
      case h_2 => exact stays
  | reply now =>
      revert found
      show (state.reply now).apiCalls.get? caller = some next → _
      rw [Application.reply]
      split
      case h_1 => exact stays
      case h_2 => exact stays
  | coordinator => exact stays found
  | pipeline => exact stays found

/-! ## What every step keeps -/

/-- Every request is one of the registered team whose key it came with. -/
structure ServerSound (config : CoordinationConfig) (server : Server) :
    Prop where
  registry : RegistrySound server.game
  delivers : Delivers config server.application
  keyed : ∀ caller call message,
    server.application.apiCalls.get? caller = some call →
      call.stage.message = some message →
        ∃ team, server.game.Registered team ∧ message.team = team.info ∧
          server.keys.get? caller = some (some team.apiKey)

namespace ServerSound

variable {config : CoordinationConfig} {server next : Server}

theorem start (config : CoordinationConfig) (cached baseline : PhaseState)
    (validator : ConstraintBasedOrderValidator) :
    ServerSound config (Server.start config cached baseline validator) where
  registry := RegistrySound.new
  delivers := Delivers.start config cached baseline validator
  keyed := by
    intro caller call message found
    cases found

/-- A registration adds at most a team. -/
theorem registerTeam (sound : ServerSound config server)
    {call : RegistryCall} (allowed : call.Allowed server.game) :
    ServerSound config (server.registerTeam call) := by
  have step := sound.registry.step ⟨allowed, rfl⟩
  have keyed : ∀ caller apiCall message,
      server.application.apiCalls.get? caller = some apiCall →
        apiCall.stage.message = some message →
          ∃ team, (call.execute server.game).Registered team ∧
            message.team = team.info ∧
              server.keys.get? caller = some (some team.apiKey) := by
    intro caller apiCall message found isMessage
    rcases sound.keyed caller apiCall message found isMessage with
      ⟨owner, registered, facts⟩
    exact ⟨owner, step.2 owner registered, facts⟩
  rw [RegistryCall.execute] at step keyed
  rw [Server.registerTeam]
  split
  case h_1 team game registers =>
    rw [registers] at step keyed
    exact ⟨step.1, sound.delivers.initializeTeam, keyed⟩
  case h_2 error game refuses =>
    rw [refuses] at step keyed
    exact ⟨step.1, sound.delivers, keyed⟩

/-- A request which is let in is one of the team of its key. -/
theorem request (sound : ServerSound config server) {caller : ℕ}
    {apiKey : Option String} {call : TeamInfo → ApplicationCall}
    (allowed : ∀ team, (call team).Allowed server.application)
    (starts : ∀ team, Application.Starts caller team server.application
      ((call team).execute server.application)) :
    ServerSound config (server.request caller apiKey call) := by
  rw [Server.request]
  split
  case h_1 team current =>
    rcases (sound.registry.getCurrentTeam_iff apiKey).mp current with
      ⟨registered, rfl⟩
    rcases starts team.info with ⟨added, isOf, apiCalls⟩
    constructor
    · exact sound.registry
    · exact sound.delivers.move
        (ApplicationCall.execute_moves (allowed team.info))
    · intro other otherCall message found isMessage
      show ∃ owner, server.game.Registered owner ∧ _ ∧
        (server.keys.set caller _).get? other = _
      have stored : (server.application.apiCalls.set caller added).get?
          other = some otherCall := apiCalls ▸ found
      rw [OrderedDict.get?_set] at stored
      rw [OrderedDict.get?_set]
      split_ifs at stored ⊢ with same
      · rcases Option.some.inj stored with rfl
        exact ⟨team, registered, isOf message isMessage, rfl⟩
      · exact sound.keyed other otherCall message stored isMessage
  case h_2 error refused => exact sound

/-- The calls stay those of their teams when a step starts no call. -/
theorem continues (sound : ServerSound config server)
    {call : ApplicationCall} (continues : call.Continues)
    (allowed : call.Allowed server.application) :
    ServerSound config
      { server with application := call.execute server.application } where
  registry := sound.registry
  delivers := sound.delivers.move (ApplicationCall.execute_moves allowed)
  keyed := by
    intro caller apiCall message found isMessage
    rcases continues.follows server.application caller apiCall found with
      ⟨before, stored, follows⟩
    apply sound.keyed caller before message stored
    rw [← follows.message]
    exact isMessage

theorem step {call : ServerCall} (sound : ServerSound config server)
    (step : ServerStep server call next) : ServerSound config next := by
  rcases step with ⟨allowed, rfl⟩
  cases call with
  | registerTeam call => exact sound.registerTeam allowed
  | submitOrder caller apiKey request orderId timestamp now registeredAt =>
      refine @ServerSound.request _ _ sound caller apiKey
        (fun team => .submitOrder caller request team orderId timestamp
          now registeredAt) ?_ ?_
      · exact fun _ => allowed
      · exact fun team => Application.submitOrder_starts request orderId
          timestamp now registeredAt
  | cancelOrder caller apiKey orderId timestamp now registeredAt =>
      refine @ServerSound.request _ _ sound caller apiKey
        (fun team => .cancelOrder caller orderId team timestamp now
          registeredAt) ?_ ?_
      · exact fun _ => allowed
      · exact fun team => Application.cancelOrder_starts orderId timestamp
          now registeredAt
  | application call => exact sound.continues allowed.1 allowed.2

theorem of_run {start : Server} {calls : List ServerCall}
    (sound : ServerSound config start)
    (run : Run ServerStep start calls server) : ServerSound config server :=
  run.invariant (ServerSound config) sound
    fun _ _ _ reached step => reached.step step

end ServerSound

/-! ## What a key has done -/

/-- The order has been submitted with the key of the team. -/
structure Server.Submitted (server : Server) (team : RegisteredTeam)
    (order : Order) : Prop where
  registered : server.game.Registered team
  own : order.traderId = team.teamId
  keyed : ∃ caller call,
    server.application.apiCalls.get? caller = some call ∧
      call.order = some order ∧
        server.keys.get? caller = some (some team.apiKey)

namespace Sample

/-- The first two teams have registered, and their market is open. -/
def keyedOpening : List ServerCall :=
  (registrations.take 2).map .registerTeam ++
    [ .application
        (.pipeline
          (.checkPhases (PhaseState.default .continuous) fun _ => 0)),
      .application (.pipeline (.listInstrument { symbol := "CALL" })) ]

/-- A request with a key is sent, and the threads go on. -/
def keyedOrder (caller : ℕ) (apiKey : String) (request : OrderRequest)
    (orderId : String) : List ServerCall :=
  [ .submitOrder caller (some apiKey) request orderId 0 0 0,
    .application (.enqueue caller),
    .application (.awaitCompletion caller 0) ] ++
    processing.map .application

/-- The first team offers four contracts. -/
def keyedOffer : List ServerCall :=
  keyedOpening ++
    keyedOrder 0 alpha.apiKey { sellRequest with quantity := 4 } "SELL"

/-- The second team buys them. -/
def keyedPurchase : List ServerCall :=
  keyedOffer ++ keyedOrder 1 "itg_bbbb" buyRequest "BUY"

/-- The first team withdraws its offer. -/
def keyedWithdrawal : List ServerCall :=
  keyedOffer ++
    [ .cancelOrder 1 (some alpha.apiKey) "SELL" 0 0 0,
      .application (.enqueue 1), .application (.awaitCompletion 1 0),
      .application (.pipeline .validatorTake),
      .application (.pipeline .cancel) ] ++
    (telling 1).map .application

/-- A server whose market makers have a position limit of four. -/
def serverStart : Server :=
  Server.start {} (PhaseState.default .closed)
    (PhaseState.default .closed) fourValidator

end Sample

section Authorized

variable {config : CoordinationConfig} {cached baseline : PhaseState}
  {validator : ConstraintBasedOrderValidator} {calls : List ServerCall}
  {server : Server}

/-- Every order which has been received has been submitted with a key. -/
theorem ServerSound.submitted (sound : ServerSound config server)
    {order : Order}
    (received :
      order ∈ server.application.pipeline.receivedOrders) :
    ∃ team, server.Submitted team order := by
  rcases List.mem_map.mp received with ⟨submission, posted, rfl⟩
  rcases List.mem_flatMap.mp posted with ⟨message, sent, submits⟩
  rcases sound.delivers.sound.order_of_received sent with
    ⟨caller, call, found, isPosted, orders⟩
  have isMessage := ApiStage.message_of_posted isPosted
  rcases sound.keyed caller call message found isMessage with
    ⟨team, registered, isTeam, key⟩
  have own := (sound.delivers.sound.apart.asks caller call message found
    isMessage).own submission submits
  have sender : submission.2 = message.team := by
    cases message with
    | newOrder order team requestId =>
        rw [List.mem_singleton.mp submits]
        rfl
    | cancelOrder orderId team requestId => cases submits
  refine ⟨team, registered, ?_, caller, call, found,
    orders submission submits, key⟩
  rw [← own.1, sender, isTeam]
  rfl

/--
Nobody trades without having asked to: either side of a trade is an order
which has been submitted with the key of the registered team to which the
trade is booked, and the price is within the limit of this order.  Each call
of the exchange is one step of the run.
-/
theorem trades_authorized
    (run :
      Run ServerStep (Server.start config cached baseline validator) calls
        server)
    {trade : Trade}
    (made : trade ∈
      server.application.pipeline.venue.market.heap.trades) :
    ∃ buyer seller buy sell, server.Submitted buyer buy ∧
      server.Submitted seller sell ∧ TradeBetween trade buy sell := by
  have sound := (ServerSound.start config cached baseline
    validator).of_run run
  have pipeline := sound.delivers.sound.pipeline
  rcases pipeline.venue.market.between trade made with
    ⟨buy, buyTaken, sell, sellTaken, between⟩
  rcases sound.submitted (pipeline.received_of_taken buyTaken) with
    ⟨buyer, buyerSubmitted⟩
  rcases sound.submitted (pipeline.received_of_taken sellTaken) with
    ⟨seller, sellerSubmitted⟩
  exact ⟨buyer, seller, buy, sell, buyerSubmitted, sellerSubmitted,
    between⟩

/-- Two teams register and trade with each other. -/
theorem trades_authorized_purchase :
    ∃ trade ∈ (replay ServerCall.execute Sample.serverStart
        Sample.keyedPurchase).application.pipeline.venue.market.heap.trades,
      ∃ buyer seller buy sell,
        (replay ServerCall.execute Sample.serverStart
            Sample.keyedPurchase).Submitted buyer buy ∧
          (replay ServerCall.execute Sample.serverStart
              Sample.keyedPurchase).Submitted seller sell ∧
            TradeBetween trade buy sell := by
  have traded : ∃ trade ∈ (replay ServerCall.execute Sample.serverStart
      Sample.keyedPurchase).application.pipeline.venue.market.heap.trades,
        trade.Names "BUY" := by
    decide +kernel
  rcases traded with ⟨trade, made, _⟩
  exact ⟨trade, made,
    trades_authorized (run_replay (by decide +kernel)) made⟩

/--
An order is only cancelled with the key it has been submitted with: a cancel
which is confirmed came with the key of the registered team whose order it
was.  Each call of the exchange is one step of the run.
-/
theorem cancel_authorized
    (run :
      Run ServerStep (Server.start config cached baseline validator) calls
        server)
    {caller : ℕ} {order : Option Order} {orderId requestId : String}
    {team : TeamInfo} {response : ApiResponse}
    (found : server.application.apiCalls.get? caller =
      some
        { order
          stage :=
            .answered (some (.cancelOrder orderId team requestId))
              response })
    (succeeded : response.success = true) :
    ∃ owner cancelled, server.Submitted owner cancelled ∧
      cancelled.orderId = orderId ∧
        server.keys.get? caller = some (some owner.apiKey) := by
  have sound := (ServerSound.start config cached baseline
    validator).of_run run
  rcases sound.delivers.fulfils found succeeded with
    ⟨_, _, cancelled, received, isOrder, own⟩
  rcases sound.submitted received with ⟨owner, submitted⟩
  rcases sound.keyed caller _ _ found rfl with
    ⟨requester, registered, isTeam, key⟩
  have same : requester = owner := by
    apply RegistrySound.eq_of_teamId registered submitted.registered
    rw [← submitted.own, own]
    exact (congrArg TeamInfo.teamId isTeam).symm
  exact ⟨owner, cancelled, submitted, isOrder, same ▸ key⟩

/-- A team withdraws its offer. -/
theorem cancel_authorized_withdrawal :
    ∃ owner cancelled,
      (replay ServerCall.execute Sample.serverStart
          Sample.keyedWithdrawal).Submitted owner cancelled ∧
        cancelled.orderId = "SELL" ∧
          (replay ServerCall.execute Sample.serverStart
              Sample.keyedWithdrawal).keys.get? 1 =
            some (some owner.apiKey) := by
  have confirmed : (replay ServerCall.execute Sample.serverStart
      Sample.keyedWithdrawal).application.apiCalls.get? 1 =
        some
          { order := none
            stage :=
              .answered
                (some (.cancelOrder "SELL" Sample.alpha.info
                  "req_0_000002"))
                (.succeeded "req_0_000002" "SELL") } := by
    decide +kernel
  exact cancel_authorized (run_replay (by decide +kernel)) confirmed rfl

end Authorized

end InternTradingGame
