import InternTradingGame.Library.Runs
import InternTradingGame.Messaging.Manager
import InternTradingGame.Messaging.Producers

/-!
# Are messages lost in routing?

The WebSocket loop takes the messages off the queue and passes each to a
broadcast method of the manager.  Producers and methods agree on two kinds
of messages only: rejected orders and position snapshots.  The payloads of
acknowledgements and of execution reports do not fit the parameters of their
methods, and the loop asks for other message types than the validator uses
for cancels.
-/

namespace InternTradingGame

open Effects

/-! ## What happens to a single message -/

/-- The router knows the type, and its method takes the payload. -/
def QueueMessage.Routable (message : QueueMessage) : Prop :=
  message.messageType = MessageType.newOrderReject.value ∨
    message.messageType = MessageType.positionSnapshot.value

instance (message : QueueMessage) : Decidable message.Routable :=
  inferInstanceAs (Decidable (_ ∨ _))

/-- What is delivered for a message: its type and its team. -/
def QueueMessage.address (message : QueueMessage) : String × String :=
  (message.messageType, message.teamId)

/-- What a message is and to whom it went. -/
def SentMessage.address (message : SentMessage) : String × String :=
  (message.messageType.value, message.teamId)

/-- One message has been sent, and the connections are the same. -/
structure Sends (messenger : Messenger) (address : String × String)
    (next : Messenger) : Prop where
  sent : ∃ message,
    next.sent = messenger.sent ++ [message] ∧ message.address = address
  consistent : next.manager.Consistent
  connections :
    next.manager.activeConnections = messenger.manager.activeConnections

section Messages

open Messenger

variable {messenger : Messenger}

/-- A message to a connected team is sent. -/
theorem sendToTeam_ends {teamId : String}
    (consistent : messenger.manager.Consistent)
    (connected : messenger.manager.IsConnected teamId)
    (messageType : MessageType) (data : Payload) :
    Ends (sendToTeam teamId messageType data) messenger
      (fun _ next => Sends messenger (messageType.value, teamId) next)
      (fun _ _ => False) := by
  rcases (OrderedDict.contains_iff_exists _ _).mp connected with
    ⟨webSocket, found⟩
  rcases consistent.exists_sequenceNumber connected with ⟨last, counted⟩
  rw [sendToTeam, ends_get_bind]
  simp only [found, counted]
  exact
    { sent := ⟨_, rfl, rfl⟩
      consistent := consistent.advance connected _
      connections := rfl }

/-- Arguments which fit are bound. -/
theorem bindArguments_of_accepts {signature : Signature MessageValue}
    {keywords : Payload} (accepts : signature.Accepts keywords.keys) :
    bindArguments signature keywords =
      pure (signature.argument keywords) := by
  rw [bindArguments, Signature.bind_of_accepts accepts]

/-- Arguments which do not fit raise before anything is sent. -/
theorem refused_nowhere {α : Type} {signature : Signature MessageValue}
    {keywords : Payload} (refuses : ¬ signature.Accepts keywords.keys)
    (body : (String → MessageValue) → MessengerM α) :
    Ends (bindArguments signature keywords >>= body) messenger
      (fun _ next => next = messenger)
      (fun _ next => next = messenger) := by
  rcases Signature.bind_of_not_accepts refuses with ⟨error, raises⟩
  have bound : bindArguments signature keywords =
      throw (.argument error) := by
    rw [bindArguments, raises]
  rw [bound]
  exact rfl

/-- The message is sent, and nothing else happens. -/
structure Routed (messenger : Messenger) (message : QueueMessage) :
    Prop where
  ends : Ends (routeWebsocketMessage message) messenger
    (fun _ next => Sends messenger message.address next)
    (fun _ _ => False)

/-- Nothing is sent, whether the routing returns or raises. -/
structure RoutedNowhere (messenger : Messenger) (message : QueueMessage) :
    Prop where
  ends : Ends (routeWebsocketMessage message) messenger
    (fun _ next => next = messenger) (fun _ next => next = messenger)

section Branches

variable {message : QueueMessage}

/-- A rejection with a fitting payload is sent. -/
theorem routed_of_newOrderReject
    (ofType : message.messageType = MessageType.newOrderReject.value)
    (accepts : newOrderRejectSignature.Accepts message.data.keys)
    (consistent : messenger.manager.Consistent)
    (connected : messenger.manager.IsConnected message.teamId) :
    Routed messenger message := by
  have routes : routeWebsocketMessage message =
      broadcastNewOrderReject message.teamId message.data := by
    rw [routeWebsocketMessage, ofType, if_neg (by decide), if_pos (by decide)]
  constructor
  rw [routes, broadcastNewOrderReject,
    bindArguments_of_accepts accepts, QueueMessage.address, ofType]
  exact sendToTeam_ends consistent connected _ _

/-- A snapshot which holds positions is sent. -/
theorem routed_of_positionSnapshot {positions : MessageValue}
    (ofType : message.messageType = MessageType.positionSnapshot.value)
    (stored : message.data.get? "positions" = some positions)
    (consistent : messenger.manager.Consistent)
    (connected : messenger.manager.IsConnected message.teamId) :
    Routed messenger message := by
  have routes : routeWebsocketMessage message =
      sendPositionSnapshot message.teamId positions := by
    rw [routeWebsocketMessage, ofType, if_neg (by decide),
      if_neg (by decide), if_neg (by decide), if_pos (by decide), stored]
  constructor
  rw [routes, sendPositionSnapshot, QueueMessage.address, ofType]
  exact sendToTeam_ends consistent connected _ _

/-- An acknowledgement with a payload that does not fit raises. -/
theorem nowhere_of_newOrderAck
    (ofType : message.messageType = MessageType.newOrderAck.value)
    (refuses : ¬ newOrderAckSignature.Accepts message.data.keys) :
    RoutedNowhere messenger message := by
  have routes : routeWebsocketMessage message =
      broadcastNewOrderAck message.teamId message.data := by
    rw [routeWebsocketMessage, ofType, if_pos (by decide)]
  constructor
  rw [routes, broadcastNewOrderAck]
  exact refused_nowhere refuses _

/-- An execution report with a payload that does not fit raises. -/
theorem nowhere_of_executionReport
    (ofType : message.messageType = MessageType.executionReport.value)
    (refuses : ¬ tradeExecutionSignature.Accepts message.data.keys) :
    RoutedNowhere messenger message := by
  have routes : routeWebsocketMessage message =
      broadcastTradeExecution message.data := by
    rw [routeWebsocketMessage, ofType, if_neg (by decide),
      if_neg (by decide), if_pos (by decide)]
  constructor
  rw [routes, broadcastTradeExecution]
  exact refused_nowhere refuses _

/-- The types for which the router has a branch. -/
def routedTypes : List String :=
  [ "new_order_ack", "new_order_reject", "execution_report",
    "position_snapshot", "order_cancelled", "order_cancel_reject" ]

/-- A message of any other type is dropped. -/
theorem nowhere_of_unknown
    (unknown : message.messageType ∉ routedTypes) :
    RoutedNowhere messenger message := by
  simp only [routedTypes, List.mem_cons, List.not_mem_nil, or_false,
    not_or] at unknown
  have routes : routeWebsocketMessage message = pure ⟨⟩ := by
    rw [routeWebsocketMessage, if_neg unknown.1, if_neg unknown.2.1,
      if_neg unknown.2.2.1, if_neg unknown.2.2.2.1,
      if_neg unknown.2.2.2.2.1, if_neg unknown.2.2.2.2.2]
  constructor
  rw [routes]
  exact rfl

end Branches

/-! ## What happens to the messages of the producers -/

/-- The router and the producers agree on the message. -/
structure RoutedWell (messenger : Messenger) (message : QueueMessage) :
    Prop where
  routable : message.Routable
  routed : Routed messenger message

/-- The message is lost. -/
structure RoutedBadly (messenger : Messenger) (message : QueueMessage) :
    Prop where
  unroutable : ¬ message.Routable
  nowhere : RoutedNowhere messenger message

variable {message : QueueMessage}

theorem validation_routed {order : Order} {team : TeamInfo}
    {result : OrderResult}
    (member : message ∈ validationMessages order team result)
    (consistent : messenger.manager.Consistent)
    (connected : messenger.manager.IsConnected message.teamId) :
    RoutedWell messenger message := by
  rw [validationMessages] at member
  split at member
  · rcases List.mem_singleton.mp member with rfl
    refine ⟨Or.inl rfl, routed_of_newOrderReject rfl ?_ consistent
      connected⟩
    rw [keys_rejection]
    decide
  · exact absurd member List.not_mem_nil

theorem snapshot_routed {team : TeamInfo}
    {positions : PositionManagementService}
    (consistent : messenger.manager.Consistent)
    (connected : messenger.manager.IsConnected team.teamId) :
    RoutedWell messenger (snapshotMessage team positions) := by
  refine ⟨Or.inr rfl, routed_of_positionSnapshot rfl
    (snapshotMessage_positions team positions) consistent connected⟩

theorem cancellation_lost {orderId : String} {team : TeamInfo}
    {answer : Except PyError (Bool × Option String)}
    (member : message ∈ cancellationMessages orderId team answer) :
    RoutedBadly messenger message := by
  rcases mem_cancellationMessages member with rfl | ⟨reason, rfl⟩
  · constructor
    · show ¬ ("cancel_ack" = "new_order_reject" ∨
        "cancel_ack" = "position_snapshot")
      decide
    · apply nowhere_of_unknown
      show "cancel_ack" ∉ routedTypes
      decide
  · constructor
    · show ¬ ("cancel_reject" = "new_order_reject" ∨
        "cancel_reject" = "position_snapshot")
      decide
    · apply nowhere_of_unknown
      show "cancel_reject" ∉ routedTypes
      decide

theorem acknowledgement_lost {order : Order} {team : TeamInfo}
    {venue : ExchangeVenue}
    (member :
      message ∈ (processSingleOrder order team venue).websocketQueue) :
    RoutedBadly messenger message := by
  have equal : ∃ status, message = acknowledgement order team status := by
    rw [processSingleOrder] at member
    split at member
    · dsimp only at member
      split_ifs at member
      · exact ⟨_, List.mem_singleton.mp member⟩
      · exact absurd member List.not_mem_nil
    · exact absurd member List.not_mem_nil
  rcases equal with ⟨status, rfl⟩
  constructor
  · show ¬ ("new_order_ack" = "new_order_reject" ∨
      "new_order_ack" = "position_snapshot")
    decide
  · apply nowhere_of_newOrderAck rfl
    rw [keys_acknowledgement]
    decide

theorem report_lost {feeService : TradingFeeService}
    {stamp : Trade → TradeStamp} {order : Order} {team : TeamInfo}
    {fills : List Trade}
    (member :
      message ∈ publishFills feeService stamp order team fills) :
    RoutedBadly messenger message := by
  rcases mem_publishFills member with ⟨trade, liquidityType, fee, rfl⟩
  constructor
  · show ¬ ("execution_report" = "new_order_reject" ∨
      "execution_report" = "position_snapshot")
    decide
  · apply nowhere_of_executionReport rfl
    rw [keys_publisherReport]
    decide

/-- A message is either sent to its team or lost. -/
theorem Produced.routed_or_lost (produced : Produced message)
    (consistent : messenger.manager.Consistent)
    (connected : messenger.manager.IsConnected message.teamId) :
    RoutedWell messenger message ∨ RoutedBadly messenger message := by
  cases produced with
  | validation member =>
      exact Or.inl (validation_routed member consistent connected)
  | cancellation member => exact Or.inr (cancellation_lost member)
  | acknowledgement member => exact Or.inr (acknowledgement_lost member)
  | report member => exact Or.inr (report_lost member)
  | snapshot team positions =>
      exact Or.inl (snapshot_routed consistent connected)

end Messages

/-! ## The loop -/

/--
The queue, the manager and what it has sent.  `routed` and `raised` are
history variables: the messages routed because their team was connected, and
the errors which the loop caught.
-/
structure MessageLoop where
  messenger : Messenger
  queue : List QueueMessage
  routed : List QueueMessage
  raised : List MessageError

/-- A step of a producer, of a connection or of the loop. -/
inductive MessageCall where
  | put (message : QueueMessage)
  | connect (webSocket : WebSocket) (team : TeamInfo)
  | disconnect (teamId : String)
  | takeNext

namespace MessageLoop

/-- No team is connected and nothing is queued. -/
def start : MessageLoop where
  messenger := { manager := WebSocketManager.new, sent := [] }
  queue := []
  routed := []
  raised := []

/-- The loop with another table of connections. -/
def withManager (manager : WebSocketManager) (loop : MessageLoop) :
    MessageLoop :=
  { loop with messenger := { loop.messenger with manager := manager } }

/-- One iteration of `websocket_async_loop`. -/
def takeNext (loop : MessageLoop) : MessageLoop :=
  match loop.queue with
  | [] => loop
  | message :: rest =>
      if loop.messenger.manager.IsConnected message.teamId then
        match Messenger.routeWebsocketMessage message loop.messenger with
        | .ok _ messenger =>
            { messenger := messenger
              queue := rest
              routed := loop.routed ++ [message]
              raised := loop.raised }
        | .error error messenger =>
            { messenger := messenger
              queue := rest
              routed := loop.routed ++ [message]
              raised := loop.raised ++ [error] }
      else
        { loop with queue := rest }

end MessageLoop

namespace MessageCall

/-- The effect of a step of the message loop and of those beside it. -/
def execute : MessageCall → MessageLoop → MessageLoop
  | .put message, loop => { loop with queue := loop.queue ++ [message] }
  | .connect webSocket team, loop =>
      loop.withManager (loop.messenger.manager.enter webSocket team)
  | .disconnect teamId, loop =>
      loop.withManager (loop.messenger.manager.remove teamId)
  | .takeNext, loop => loop.takeNext

/-- Only the producers put messages on the queue. -/
def Allowed : MessageCall → MessageLoop → Prop
  | .put message, _ => Produced message
  | _, _ => True

end MessageCall

/--
A step of the message loop, where queued messages are such as the threads
put on the queue.
-/
abbrev MessageStep : MessageLoop → MessageCall → MessageLoop → Prop :=
  GuardedStep MessageCall.Allowed MessageCall.execute

/--
For every message routed to a connected team a message of its type has been
sent to that team, in the order of the queue, and nothing has raised.
-/
structure Lossless (loop : MessageLoop) : Prop where
  delivered :
    (loop.routed.map QueueMessage.address).Sublist
      (loop.messenger.sent.map SentMessage.address)
  quiet : loop.raised = []

/-- What holds of the loop in every run. -/
structure LoopInv (loop : MessageLoop) : Prop where
  consistent : loop.messenger.manager.Consistent
  produced : ∀ message ∈ loop.queue, Produced message
  sent :
    loop.messenger.sent.map SentMessage.address =
      (loop.routed.filter (·.Routable)).map QueueMessage.address
  quiet :
    (∀ message ∈ loop.routed, message.Routable) → loop.raised = []

theorem loopInv_start : LoopInv MessageLoop.start where
  consistent := WebSocketManager.consistent_new
  produced _ impossible := absurd impossible List.not_mem_nil
  sent := rfl
  quiet _ := rfl

section Loop

variable {loop : MessageLoop}

theorem LoopInv.withManager (invariant : LoopInv loop)
    {manager : WebSocketManager} (consistent : manager.Consistent) :
    LoopInv (loop.withManager manager) where
  consistent := consistent
  produced := invariant.produced
  sent := invariant.sent
  quiet := invariant.quiet

/-- A message which is sent is the only one sent. -/
theorem LoopInv.routed (invariant : LoopInv loop)
    {message : QueueMessage} {rest : List QueueMessage}
    (queue : loop.queue = message :: rest) (routable : message.Routable)
    {next : Messenger}
    (sends : Sends loop.messenger message.address next) :
    LoopInv
      { messenger := next
        queue := rest
        routed := loop.routed ++ [message]
        raised := loop.raised } where
  consistent := sends.consistent
  produced other member :=
    invariant.produced other (queue ▸ List.mem_cons_of_mem _ member)
  sent := by
    rcases sends.sent with ⟨delivered, sent, address⟩
    rw [sent, List.map_append, invariant.sent, List.filter_append,
      List.map_append]
    simp [routable, address]
  quiet all :=
    invariant.quiet fun other member =>
      all other (List.mem_append_left _ member)

/-- A message which is lost changes nothing but the history. -/
theorem LoopInv.lost (invariant : LoopInv loop)
    {message : QueueMessage} {rest : List QueueMessage}
    (queue : loop.queue = message :: rest)
    (unroutable : ¬ message.Routable) (raised : List MessageError) :
    LoopInv
      { messenger := loop.messenger
        queue := rest
        routed := loop.routed ++ [message]
        raised := raised } where
  consistent := invariant.consistent
  produced other member :=
    invariant.produced other (queue ▸ List.mem_cons_of_mem _ member)
  sent := by
    rw [invariant.sent, List.filter_append]
    simp [unroutable]
  quiet all :=
    absurd
      (all message
        (List.mem_append_right _ (List.mem_singleton_self message)))
      unroutable

theorem LoopInv.takeNext (invariant : LoopInv loop) :
    LoopInv loop.takeNext := by
  rw [MessageLoop.takeNext]
  cases queue : loop.queue with
  | nil => exact invariant
  | cons message rest =>
      have produced : Produced message :=
        invariant.produced message (queue ▸ List.mem_cons_self)
      dsimp only
      split_ifs with connected
      · rcases produced.routed_or_lost invariant.consistent connected with
          well | badly
        · have ends := well.routed.ends
          cases evaluated : Messenger.routeWebsocketMessage message
              loop.messenger with
          | ok value next =>
              exact invariant.routed queue well.routable
                (ends.elim_ok evaluated)
          | error error next => exact (ends.elim_error evaluated).elim
        · have ends := badly.nowhere.ends
          cases evaluated : Messenger.routeWebsocketMessage message
              loop.messenger with
          | ok value next =>
              rcases ends.elim_ok evaluated with rfl
              exact invariant.lost queue badly.unroutable loop.raised
          | error error next =>
              rcases ends.elim_error evaluated with rfl
              exact invariant.lost queue badly.unroutable _
      · exact
          { consistent := invariant.consistent
            produced := fun other member =>
              invariant.produced other
                (queue ▸ List.mem_cons_of_mem _ member)
            sent := invariant.sent
            quiet := invariant.quiet }

theorem loopInv_execute {call : MessageCall}
    (invariant : LoopInv loop) (allowed : call.Allowed loop) :
    LoopInv (call.execute loop) := by
  cases call with
  | put message =>
      refine
        { consistent := invariant.consistent
          produced := ?_
          sent := invariant.sent
          quiet := invariant.quiet }
      intro other member
      rcases List.mem_append.mp member with old | new
      · exact invariant.produced other old
      · rw [List.mem_singleton.mp new]
        exact allowed
  | connect webSocket team =>
      exact invariant.withManager (invariant.consistent.enter _ _)
  | disconnect teamId =>
      exact invariant.withManager (invariant.consistent.remove _)
  | takeNext => exact invariant.takeNext

/-- Messages are lost exactly if the router meets one it cannot send. -/
theorem LoopInv.lossless_iff (invariant : LoopInv loop) :
    Lossless loop ↔ ∀ message ∈ loop.routed, message.Routable := by
  constructor
  · intro lossless
    have shorter := lossless.delivered.length_le
    rw [invariant.sent, List.length_map, List.length_map] at shorter
    have all := List.length_filter_eq_length_iff.mp
      (le_antisymm (List.length_filter_le _ _) shorter)
    intro message member
    simpa using all message member
  · intro routable
    refine ⟨?_, invariant.quiet routable⟩
    rw [invariant.sent, List.filter_eq_self.mpr fun message member => by
      simpa using routable message member]

end Loop

/--
No message is lost if and only if every message taken off the queue while
its team is connected is a rejected order or a position snapshot.
-/
theorem websocketLoop_lossless_iff {calls : List MessageCall}
    {loop : MessageLoop}
    (run : Run MessageStep MessageLoop.start calls loop) :
    Lossless loop ↔ ∀ message ∈ loop.routed, message.Routable := by
  have invariant : LoopInv loop := by
    apply run.invariant LoopInv loopInv_start
    rintro state call _ held ⟨allowed, rfl⟩
    exact loopInv_execute held allowed
  exact invariant.lossless_iff

namespace Sample

/-- The team which buys in the examples. -/
def takerTeam : TeamInfo where
  teamId := "TAKER"
  role := "market_maker"

/-- A team connects and gets the snapshot of its positions. -/
def snapshotCalls : List MessageCall :=
  [ .connect 1 takerTeam,
    .put (snapshotMessage takerTeam PositionManagementService.new),
    .takeNext ]

/-- A connected team cancels an order. -/
def cancelCalls : List MessageCall :=
  [ .connect 1 takerTeam,
    .put (cancelAcknowledgement "BUY" takerTeam),
    .takeNext ]

theorem cancelAcknowledgement_produced :
    Produced (cancelAcknowledgement "BUY" takerTeam) := by
  have member : cancelAcknowledgement "BUY" takerTeam ∈
      cancellationMessages "BUY" takerTeam (.ok (true, none)) :=
    List.mem_singleton_self _
  exact .cancellation member

end Sample

theorem websocketLoop_lossless_snapshot :
    Lossless
        (replay MessageCall.execute MessageLoop.start
          Sample.snapshotCalls) ↔
      ∀ message ∈
          (replay MessageCall.execute MessageLoop.start
            Sample.snapshotCalls).routed,
        message.Routable :=
  websocketLoop_lossless_iff
    (run_replay ⟨trivial, .snapshot _ _, trivial, trivial⟩)

/-- The acknowledgement of a cancel is dropped. -/
theorem cancelAcknowledgement_lost :
    ¬ ∀ (calls : List MessageCall) (loop : MessageLoop),
      Run MessageStep MessageLoop.start calls loop → Lossless loop := by
  intro always
  have lossless := always Sample.cancelCalls _
    (run_replay
      ⟨trivial, Sample.cancelAcknowledgement_produced, trivial, trivial⟩)
  exact absurd lossless.delivered.length_le (by decide +kernel)

end InternTradingGame
