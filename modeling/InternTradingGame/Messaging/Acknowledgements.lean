import InternTradingGame.Messaging.Producers

/-!
# Is every order answered?

The matching thread acknowledges an order once the continuous engine has
worked on it.  An order which the batch engine collects, which the phase
refuses or for which the exchange raises leaves nothing on the WebSocket
queue, although the client has been told that the order was accepted.
-/

namespace InternTradingGame

open Effects

/-- An acknowledgement or a rejection of the order, for its team. -/
def QueueMessage.Answers (message : QueueMessage) (order : Order)
    (team : TeamInfo) : Prop :=
  (message.messageType = MessageType.newOrderAck.value ∨
      message.messageType = MessageType.newOrderReject.value) ∧
    message.teamId = team.teamId ∧
    textOf message.data "order_id" = some order.orderId

instance (message : QueueMessage) (order : Order) (team : TeamInfo) :
    Decidable (message.Answers order team) :=
  inferInstanceAs (Decidable ((_ ∨ _) ∧ _ ∧ _))

/-- The matching thread puts exactly one answer on the queue. -/
def AnsweredOnce (order : Order) (team : TeamInfo) (venue : ExchangeVenue) :
    Prop :=
  ((processSingleOrder order team venue).websocketQueue.filter
    (·.Answers order team)).length = 1

instance (order : Order) (team : TeamInfo) (venue : ExchangeVenue) :
    Decidable (AnsweredOnce order team venue) :=
  inferInstanceAs (Decidable (_ = 1))

/-- The venue takes the order, and the continuous engine works on it. -/
structure MatchedAtOnce (venue : ExchangeVenue) (order : Order) :
    Prop where
  allowed : venue.currentPhaseState.isOrderSubmissionAllowed = true
  continuous : venue.shouldUseBatchEngine = false
  listed : venue.market.orderBooks.Contains order.instrumentId
  unknown : order.orderId ∉ venue.allOrderIds

section Answers

variable {venue : ExchangeVenue} {order : Order} {team : TeamInfo}

/-- The acknowledgement of an order answers it. -/
theorem acknowledgement_answers (status : OrderStatus) :
    (acknowledgement order team status).Answers order team := by
  exact ⟨Or.inl rfl, rfl, acknowledgement_orderId order team status⟩

/-- The continuous engine returns only statuses which are acknowledged. -/
theorem continuous_submitOrder_acknowledged {market after : Market}
    {result : OrderResult}
    (evaluates :
      ContinuousMatchingEngine.submitOrder order market =
        .ok result after) :
    result.status.IsAcknowledged := by
  rw [ContinuousMatchingEngine.submitOrder, bind_apply] at evaluates
  cases added : Market.onBook order.instrumentId
      (OrderBook.addOrder order) market with
  | error exception part =>
      rw [added] at evaluates
      cases evaluates
  | ok trades part =>
      rw [added] at evaluates
      rcases EStateM.Result.ok.inj evaluates with ⟨rfl, _⟩
      show (if order.IsFilled part.heap then OrderStatus.filled
        else if trades.isEmpty then OrderStatus.new
        else OrderStatus.partiallyFilled).IsAcknowledged
      split_ifs
      · decide
      · decide
      · decide

/-- A submission which returns is answered if it is acknowledged. -/
theorem answeredOnce_of_ok {result : OrderResult} {next : ExchangeVenue}
    (submits : ExchangeVenue.submitOrder order venue = .ok result next) :
    AnsweredOnce order team venue ↔ result.status.IsAcknowledged := by
  rw [AnsweredOnce, processSingleOrder, submits]
  by_cases acknowledged : result.status.IsAcknowledged
  · have answers :
        (acknowledgement order team result.status).Answers order team :=
      acknowledgement_answers result.status
    simp [acknowledged, answers]
  · simp [acknowledged]

/-- A submission which raises is not answered. -/
theorem not_answeredOnce_of_error {exception : PyError}
    {next : ExchangeVenue}
    (raises :
      ExchangeVenue.submitOrder order venue = .error exception next) :
    ¬ AnsweredOnce order team venue := by
  rw [AnsweredOnce, processSingleOrder, raises]
  exact Nat.zero_ne_one

end Answers

/--
An item of the match queue is answered if and only if the phase takes
orders, the continuous engine serves it, the instrument is listed and the
order id is new.  The endpoint draws the ids, so an id stands for one order
in the run.
-/
theorem matchingThread_answers_iff {cached baseline : PhaseState}
    {calls : List VenueCall} {venue : ExchangeVenue}
    (run :
      Run VenueStep (ExchangeVenue.new cached baseline) calls venue)
    (whole : ∀ call ∈ calls, call.WholeQuantity)
    {order : Order} (wholeQuantity : Whole order.quantity)
    (allowed : (VenueCall.submitOrder order).Allowed venue)
    (team : TeamInfo) :
    AnsweredOnce order team venue ↔ MatchedAtOnce venue order := by
  have sound :=
    VenueSound.of_run (VenueSound.new cached baseline) run whole
  have ends := submitOrder_ends sound.shape allowed
  constructor
  · intro answered
    cases evaluated : ExchangeVenue.submitOrder order venue with
    | error exception next =>
        exact absurd answered (not_answeredOnce_of_error evaluated)
    | ok result next =>
        have acknowledged := (answeredOnce_of_ok evaluated).mp answered
        cases ends.elim_ok evaluated with
        | refused _ =>
            have rejected : OrderStatus.rejected.IsAcknowledged :=
              acknowledged
            exact absurd rejected (by decide)
        | collected _ _ =>
            have pending : OrderStatus.pendingNew.IsAcknowledged :=
              acknowledged
            exact absurd pending (by decide)
        | matched takes continuous _ _ _ _ _ =>
            exact ⟨takes.allowed, continuous, takes.listed,
              takes.unknown⟩
  · intro atOnce
    have takes : Takes venue order :=
      { allowed := atOnce.allowed
        listed := atOnce.listed
        unknown := atOnce.unknown
        fresh := fun taken member equal =>
          atOnce.unknown (allowed taken member equal) }
    rcases takes.answered sound wholeQuantity with ⟨result, next, submits⟩
    rw [answeredOnce_of_ok submits]
    cases ends.elim_ok submits with
    | refused phase => cases atOnce.allowed.symm.trans phase
    | collected _ batch => cases atOnce.continuous.symm.trans batch
    | matched _ _ evaluates _ _ _ _ =>
        exact continuous_submitOrder_acknowledged evaluates

theorem matchingThread_answers_continuous :
    AnsweredOnce Sample.buyFour { teamId := "TAKER", role := "retail" }
        (replay VenueCall.execute Sample.closedVenue
          Sample.continuousCalls) ↔
      MatchedAtOnce
        (replay VenueCall.execute Sample.closedVenue
          Sample.continuousCalls)
        Sample.buyFour :=
  matchingThread_answers_iff (run_replay (by decide +kernel))
    (by decide +kernel) (by decide +kernel) (by decide +kernel) _

/-- An order submitted before the opening is not answered. -/
theorem preOpen_order_unanswered :
    ¬ ∀ (cached baseline : PhaseState) (calls : List VenueCall)
        (venue : ExchangeVenue) (order : Order) (team : TeamInfo),
      Run VenueStep (ExchangeVenue.new cached baseline) calls venue →
        (∀ call ∈ calls, call.WholeQuantity) →
          Whole order.quantity →
            (VenueCall.submitOrder order).Allowed venue →
              AnsweredOnce order team venue := by
  intro always
  have answered := always (PhaseState.default .closed)
    (PhaseState.default .closed) Sample.preOpenCalls _ Sample.buyFour
    { teamId := "TAKER", role := "retail" }
    (run_replay (by decide +kernel)) (by decide +kernel)
    (by decide +kernel) (by decide +kernel)
  exact absurd answered (by decide +kernel)

end InternTradingGame
