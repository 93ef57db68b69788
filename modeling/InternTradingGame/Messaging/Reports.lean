import InternTradingGame.Messaging.Routing
import InternTradingGame.Positions.ZeroSum

/-!
# Do both parties hear of a trade?

The publisher thread puts one execution report on the WebSocket queue for
every fill: the one for the team whose order has just been matched.  The
team of the resting order gets none.  And no report ever reaches a socket,
because the router cannot pass its payload on.
-/

namespace InternTradingGame

open Effects

/-! ## Reports -/

/-- What an execution report says to whom. -/
structure Report where
  teamId : String
  orderId : String
  liquidity : String
deriving DecidableEq

/-- The report a message on the queue makes. -/
def QueueMessage.report? (message : QueueMessage) : Option Report :=
  if message.messageType = MessageType.executionReport.value then
    match textOf message.data "order_id",
        textOf message.data "liquidity" with
    | some orderId, some liquidity =>
        some { teamId := message.teamId, orderId, liquidity }
    | _, _ => none
  else
    none

/-- The report a sent message makes. -/
def SentMessage.report? (message : SentMessage) : Option Report :=
  if message.messageType = .executionReport then
    match textOf message.data "order_id",
        textOf message.data "liquidity_type" with
    | some orderId, some liquidity =>
        some { teamId := message.teamId, orderId, liquidity }
    | _, _ => none
  else
    none

/-- The report a party of a trade should get. -/
def Trade.reportTo (trade : Trade) : OrderSide → Report
  | .buy =>
      { teamId := trade.buyerId
        orderId := trade.buyerOrderId
        liquidity :=
          (TradingFeeService.determineLiquidityType trade.aggressorSide
            .buy).value }
  | .sell =>
      { teamId := trade.sellerId
        orderId := trade.sellerOrderId
        liquidity :=
          (TradingFeeService.determineLiquidityType trade.aggressorSide
            .sell).value }

/-- The party gets one report with its order id, and the right one. -/
def Hears (side : OrderSide) (trade : Trade) (reports : List Report) :
    Prop :=
  (reports.filter fun report =>
      report.teamId = (trade.reportTo side).teamId ∧
        report.orderId = (trade.reportTo side).orderId) =
    [trade.reportTo side]

/-- Both parties of a trade hear of it. -/
structure BothHear (trade : Trade) (reports : List Report) : Prop where
  buyer : Hears .buy trade reports
  seller : Hears .sell trade reports

/-- A party which is heard of is named in a report. -/
theorem Hears.named {side : OrderSide} {trade : Trade}
    {reports : List Report} (hears : Hears side trade reports) :
    ∃ report ∈ reports,
      report.orderId = (trade.reportTo side).orderId := by
  have member : trade.reportTo side ∈ reports.filter fun report =>
      report.teamId = (trade.reportTo side).teamId ∧
        report.orderId = (trade.reportTo side).orderId := by
    rw [Hears] at hears
    rw [hears]
    exact List.mem_singleton_self _
  exact ⟨_, (List.mem_filter.mp member).1, rfl⟩

/-- Reports which all name one order do not serve both parties. -/
theorem not_bothHear_of_single {trade : Trade} {reports : List Report}
    {orderId : String}
    (single : ∀ report ∈ reports, report.orderId = orderId)
    (apart : trade.buyerOrderId ≠ trade.sellerOrderId) :
    ¬ BothHear trade reports := by
  intro both
  rcases both.buyer.named with ⟨toBuyer, buyerMember, buyerOrder⟩
  rcases both.seller.named with ⟨toSeller, sellerMember, sellerOrder⟩
  apply apart
  calc
    trade.buyerOrderId = toBuyer.orderId := buyerOrder.symm
    _ = orderId := single toBuyer buyerMember
    _ = toSeller.orderId := (single toSeller sellerMember).symm
    _ = trade.sellerOrderId := sellerOrder

/-! ## The publisher -/

section Publisher

variable (feeService : TradingFeeService) (stamp : Trade → TradeStamp)

/-- What the publisher puts on the WebSocket queue for one fill. -/
def fillMessages (data : TradeData) (fill : Trade) : List QueueMessage :=
  match publishFill feeService stamp data.order data.team fill with
  | .ok message => [message]
  | .error _ => []

variable {feeService : TradingFeeService}

/-- A fill of a team with a known role is published. -/
theorem publishFill_ok {data : TradeData}
    (known : Chargeable feeService data) (fill : Trade) :
    ∃ liquidityType fee,
      publishFill feeService stamp data.order data.team fill =
        .ok (publisherReport stamp data.order data.team fill
          liquidityType fee) := by
  rcases calculateFee_cases feeService (truncate fill.quantity)
      data.team.role fill.aggressorSide data.order.side with
    ⟨⟨fee, charged⟩, _⟩ | ⟨_, unknown⟩
  · refine ⟨TradingFeeService.determineLiquidityType
      fill.aggressorSide data.order.side, fee, ?_⟩
    rw [publishFill, charged]
  · exact absurd known unknown

/-- All fills of a team with a known role are published. -/
theorem publishFills_eq {data : TradeData}
    (known : Chargeable feeService data) (fills : List Trade) :
    publishFills feeService stamp data.order data.team fills =
      fills.flatMap (fillMessages feeService stamp data) := by
  induction fills with
  | nil => rfl
  | cons fill rest induction =>
      rcases publishFill_ok stamp known fill with
        ⟨liquidityType, fee, published⟩
      rw [publishFills, published, List.flatMap_cons, ← induction,
        fillMessages, published]
      rfl

/-- What the publisher leaves after a sequence of items. -/
theorem tradePublisherThread_eq {queue : List TradeData}
    (known : ∀ data ∈ queue, Chargeable feeService data)
    (queues : PublisherQueues) :
    tradePublisherThread feeService stamp queue queues =
      { positionQueue := queues.positionQueue ++ queue
        websocketQueue :=
          queues.websocketQueue ++
            queue.flatMap fun data =>
              data.result.fills.flatMap
                (fillMessages feeService stamp data) } := by
  induction queue generalizing queues with
  | nil => simp [tradePublisherThread]
  | cons data rest induction =>
      have later := induction
        (fun other member => known other (List.mem_cons_of_mem _ member))
        (publishResult feeService stamp queues data)
      rw [tradePublisherThread] at later ⊢
      rw [List.foldl_cons, later, publishResult,
        publishFills_eq stamp (known data List.mem_cons_self),
        List.flatMap_cons, List.append_assoc, List.append_assoc,
        List.singleton_append]

/-- The report of the publisher names the order which was matched. -/
theorem publisherReport_report {order : Order} {team : TeamInfo}
    {trade : Trade} {liquidityType : LiquidityType} {fee : ℚ}
    {report : Report}
    (makes : (publisherReport stamp order team trade liquidityType
      fee).report? = some report) :
    report.orderId = order.orderId := by
  have ofType : (publisherReport stamp order team trade liquidityType
      fee).messageType = MessageType.executionReport.value :=
    rfl
  rw [QueueMessage.report?, if_pos ofType, publisherReport_orderId]
    at makes
  cases liquidity : textOf (publisherReport stamp order team trade
      liquidityType fee).data "liquidity" with
  | none =>
      rw [liquidity] at makes
      cases makes
  | some content =>
      rw [liquidity] at makes
      rcases Option.some.inj makes with rfl
      rfl

/-- The reports of one fill which are put on the queue. -/
def queuedReports (feeService : TradingFeeService)
    (stamp : Trade → TradeStamp) (data : TradeData) (fill : Trade) :
    List Report :=
  (fillMessages feeService stamp data fill).filterMap
    QueueMessage.report?

/-- They all name the order which was matched. -/
theorem orderId_of_queuedReports {data : TradeData} {fill : Trade}
    {report : Report}
    (member : report ∈ queuedReports feeService stamp data fill) :
    report.orderId = data.order.orderId := by
  rcases List.mem_filterMap.mp member with ⟨message, queued, makes⟩
  rw [fillMessages, publishFill] at queued
  cases charged : feeService.calculateFee (truncate fill.quantity)
      data.team.role
      (TradingFeeService.determineLiquidityType fill.aggressorSide
        data.order.side) with
  | error exception =>
      rw [charged] at queued
      exact absurd queued List.not_mem_nil
  | ok fee =>
      rw [charged] at queued
      rcases List.mem_singleton.mp queued with rfl
      exact publisherReport_report stamp makes

end Publisher

/-! ## Delivery -/

/-- The loop takes messages off the queue, one after the other. -/
def deliver (messages : List QueueMessage) (messenger : Messenger) :
    Messenger :=
  messages.foldl
    (fun messenger message =>
      if messenger.manager.IsConnected message.teamId then
        finalState (Messenger.routeWebsocketMessage message messenger)
      else
        messenger)
    messenger

/-- The reports which messages lead to, from a state of the manager. -/
def deliveredReports (messages : List QueueMessage)
    (messenger : Messenger) : List Report :=
  ((deliver messages messenger).sent.drop
    messenger.sent.length).filterMap SentMessage.report?

/-- A lost message leaves the messenger as it was. -/
theorem RoutedNowhere.finalState {messenger : Messenger}
    {message : QueueMessage} (nowhere : RoutedNowhere messenger message) :
    Effects.finalState
        (Messenger.routeWebsocketMessage message messenger) =
      messenger := by
  have ends := nowhere.ends
  cases evaluated : Messenger.routeWebsocketMessage message
      messenger with
  | ok value next => exact ends.elim_ok evaluated
  | error error next => exact ends.elim_error evaluated

/-- Messages which are lost lead to no report. -/
theorem deliveredReports_eq_nil {messages : List QueueMessage}
    {messenger : Messenger}
    (lost : ∀ message ∈ messages, RoutedBadly messenger message) :
    deliveredReports messages messenger = [] := by
  have unchanged : deliver messages messenger = messenger := by
    induction messages with
    | nil => rfl
    | cons message rest induction =>
        have same :
            (if messenger.manager.IsConnected message.teamId then
              finalState
                (Messenger.routeWebsocketMessage message messenger)
            else
              messenger) = messenger := by
          split_ifs
          · exact (lost message List.mem_cons_self).nowhere.finalState
          · rfl
        rw [deliver, List.foldl_cons, same]
        exact induction fun other member =>
          lost other (List.mem_cons_of_mem _ member)
  rw [deliveredReports, unchanged, List.drop_length]
  rfl

/-- The reports of a fill are never delivered. -/
theorem fillMessages_undelivered (feeService : TradingFeeService)
    (stamp : Trade → TradeStamp) (data : TradeData) (fill : Trade)
    (messenger : Messenger) :
    deliveredReports (fillMessages feeService stamp data fill)
        messenger = [] := by
  apply deliveredReports_eq_nil
  intro message queued
  have published :
      message ∈ publishFills feeService stamp data.order data.team
        [fill] := by
    rw [fillMessages] at queued
    rw [publishFills]
    cases published : publishFill feeService stamp data.order data.team
        fill with
    | error exception =>
        rw [published] at queued
        exact absurd queued List.not_mem_nil
    | ok report =>
        rw [published] at queued
        exact queued
  exact report_lost published

/-! ## Results of the continuous engine -/

/-- The result of a submission to a venue which has been reached. -/
inductive ResultOfRun : TradeData → Prop where
  | intro {cached baseline : PhaseState} {calls : List VenueCall}
      {venue next : ExchangeVenue} {data : TradeData}
      (run :
        Run VenueStep (ExchangeVenue.new cached baseline) calls venue)
      (allowed : (VenueCall.submitOrder data.order).Allowed venue)
      (submits :
        ExchangeVenue.submitOrder data.order venue =
          .ok data.result next) :
      ResultOfRun data

/-- The order is the aggressor of every fill of its result. -/
theorem ResultOfRun.aggressorFill {data : TradeData}
    (ofRun : ResultOfRun data) :
    ∀ fill ∈ data.result.fills, AggressorFill data.order fill := by
  cases ofRun with
  | intro run allowed submits =>
      have shape :=
        VenueShape.of_run (VenueShape.new _ _) run
      exact ((submitOrder_ends shape allowed).elim_ok
        submits).aggressorFill shape

/-- The two orders of a fill are different. -/
theorem AggressorFill.apart {order : Order} {fill : Trade}
    (isFill : AggressorFill order fill) :
    fill.buyerOrderId ≠ fill.sellerOrderId := by
  cases side : order.side with
  | buy =>
      rcases isFill.buying side with ⟨buyer, _, other⟩
      exact fun same => other (same.symm.trans buyer)
  | sell =>
      rcases isFill.selling side with ⟨seller, _, other⟩
      exact fun same => other (same.trans seller)

/-- No fill reaches both parties, on the queue or over a socket. -/
theorem not_bothHear {data : TradeData} (ofRun : ResultOfRun data)
    {fill : Trade} (member : fill ∈ data.result.fills)
    (feeService : TradingFeeService) (stamp : Trade → TradeStamp)
    (messenger : Messenger) :
    ¬ BothHear fill (queuedReports feeService stamp data fill) ∧
      ¬ BothHear fill
        (deliveredReports (fillMessages feeService stamp data fill)
          messenger) := by
  have apart := (ofRun.aggressorFill fill member).apart
  constructor
  · exact not_bothHear_of_single
      (fun report queued => orderId_of_queuedReports stamp queued) apart
  · have silent : ∀ report ∈ deliveredReports
        (fillMessages feeService stamp data fill) messenger,
        report.orderId = "" := by
      rw [fillMessages_undelivered]
      exact fun report impossible => absurd impossible List.not_mem_nil
    exact not_bothHear_of_single silent apart

/--
The publisher leaves the reports of all fills in their order, and both
parties hear of every trade, on the queue or over their sockets, if and only
if nothing has been traded.
-/
theorem publisher_bothHear_iff {queue : List TradeData}
    (ofRun : ∀ data ∈ queue, ResultOfRun data)
    {feeService : TradingFeeService}
    (known : ∀ data ∈ queue, Chargeable feeService data)
    (stamp : Trade → TradeStamp) (queues : PublisherQueues)
    (messenger : Messenger) :
    (tradePublisherThread feeService stamp queue queues).websocketQueue =
        queues.websocketQueue ++
          queue.flatMap (fun data =>
            data.result.fills.flatMap
              (fillMessages feeService stamp data)) ∧
      ((∀ data ∈ queue, ∀ fill ∈ data.result.fills,
          BothHear fill (queuedReports feeService stamp data fill)) ↔
        ∀ data ∈ queue, data.result.fills = []) ∧
      ((∀ data ∈ queue, ∀ fill ∈ data.result.fills,
          BothHear fill
            (deliveredReports (fillMessages feeService stamp data fill)
              messenger)) ↔
        ∀ data ∈ queue, data.result.fills = []) := by
  refine ⟨?_, ?_, ?_⟩
  · rw [tradePublisherThread_eq stamp known]
  · constructor
    · intro hear data inQueue
      apply List.eq_nil_iff_forall_not_mem.mpr
      intro fill member
      exact (not_bothHear (ofRun data inQueue) member feeService stamp
        messenger).1 (hear data inQueue fill member)
    · intro none data inQueue fill member
      rw [none data inQueue] at member
      exact absurd member List.not_mem_nil
  · constructor
    · intro hear data inQueue
      apply List.eq_nil_iff_forall_not_mem.mpr
      intro fill member
      exact (not_bothHear (ofRun data inQueue) member feeService stamp
        messenger).2 (hear data inQueue fill member)
    · intro none data inQueue fill member
      rw [none data inQueue] at member
      exact absurd member List.not_mem_nil

namespace Sample

/-- The sale of four contracts, as the matching thread forwards it. -/
theorem exists_sale :
    ∃ data : TradeData,
      ResultOfRun data ∧ data.team = takerTeam ∧
        data.result.fills.length = 1 := by
  have filled :
      (returned (ExchangeVenue.submitOrder buyFour
        (replay VenueCall.execute closedVenue continuousCalls))).map
          (fun result => result.fills.length) = some 1 := by
    decide +kernel
  cases evaluated : ExchangeVenue.submitOrder buyFour
      (replay VenueCall.execute closedVenue continuousCalls) with
  | error exception next =>
      rw [evaluated] at filled
      cases filled
  | ok result next =>
      rw [evaluated] at filled
      have run : Run VenueStep closedVenue continuousCalls
          (replay VenueCall.execute closedVenue continuousCalls) :=
        run_replay (by decide +kernel)
      have allowed : (VenueCall.submitOrder buyFour).Allowed
          (replay VenueCall.execute closedVenue continuousCalls) := by
        decide +kernel
      exact ⟨{ result, order := buyFour, team := takerTeam },
        .intro run allowed evaluated, rfl, Option.some.inj filled⟩

/-- The same id and time for every trade. -/
def stamp : Trade → TradeStamp :=
  fun _ => { tradeId := "TRADE", timestamp := "2024-01-15T10:00:00" }

/-- A messenger without connections, which has sent nothing. -/
def idleMessenger : Messenger where
  manager := WebSocketManager.new
  sent := []

end Sample

theorem publisher_bothHear_sale :
    ∃ data : TradeData, data.result.fills.length = 1 ∧
      (((∀ item ∈ [data], ∀ fill ∈ item.result.fills,
          BothHear fill
            (queuedReports Sample.fees Sample.stamp item fill)) ↔
        ∀ item ∈ [data], item.result.fills = [])) := by
  rcases Sample.exists_sale with ⟨data, ofRun, team, one⟩
  refine ⟨data, one, ?_⟩
  have known : Chargeable Sample.fees data := by
    rw [Chargeable, team]
    decide +kernel
  exact (publisher_bothHear_iff
    (fun item member => List.mem_singleton.mp member ▸ ofRun)
    (fun item member => List.mem_singleton.mp member ▸ known)
    Sample.stamp { positionQueue := [], websocketQueue := [] }
    Sample.idleMessenger).2.1

/-- The seller does not hear of the sale, nor does anyone over a socket. -/
theorem seller_not_told :
    ¬ ∀ (data : TradeData) (feeService : TradingFeeService)
        (stamp : Trade → TradeStamp) (messenger : Messenger),
      ResultOfRun data → Chargeable feeService data →
        ∀ fill ∈ data.result.fills,
          BothHear fill (queuedReports feeService stamp data fill) ∨
            BothHear fill
              (deliveredReports
                (fillMessages feeService stamp data fill) messenger) := by
  intro always
  rcases Sample.exists_sale with ⟨data, ofRun, team, one⟩
  have known : Chargeable Sample.fees data := by
    rw [Chargeable, team]
    decide +kernel
  rcases List.length_eq_one_iff.mp one with ⟨fill, only⟩
  have member : fill ∈ data.result.fills := by
    rw [only]
    exact List.mem_singleton_self fill
  have silent := not_bothHear ofRun member Sample.fees Sample.stamp
    Sample.idleMessenger
  rcases always data Sample.fees Sample.stamp Sample.idleMessenger ofRun
      known fill member with queued | delivered
  · exact silent.1 queued
  · exact silent.2 delivered

end InternTradingGame
