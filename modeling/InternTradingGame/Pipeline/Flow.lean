import InternTradingGame.Exchange.Interference
import InternTradingGame.Pipeline.OrderRate

/-!
# The way of an order through the pipeline

An order is carried from the order queue over the validator and the match
queue to the matching thread, which submits it to the exchange.  No thread
puts an order in front of another one, so the orders which have been
submitted and those which are still carried make up a part of the received
ones, in the order in which they were received.

A step of the pipeline makes at most one call of the exchange, and the call
is one the venue allows.
-/

namespace InternTradingGame

open Effects Sequences

/-! ## What a step does -/

/-- The id of the order which the thread is about to cancel. -/
def ValidatorState.cancelling :
    ValidatorState → List (String × TeamInfo × String)
  | received (.cancelOrder orderId team requestId) =>
      [(orderId, team, requestId)]
  | _ => []

namespace PipelineCall

/-- The message a step puts on the order queue. -/
def messages : PipelineCall → List OrderMessage
  | post message => [message]
  | _ => []

/-- The order a step submits, with its team. -/
def submitting : PipelineCall → Pipeline → List (Order × TeamInfo)
  | submit, state => state.matcher.submissions
  | _, _ => []

/-- What a step makes the exchange do. -/
def actions : PipelineCall → Pipeline → List ExchangeAction
  | cancel, state =>
      state.validator.cancelling.map fun cancelled =>
        .cancel cancelled.2.2
  | submit, state =>
      state.matcher.submissions.map fun submission =>
        .submission submission.1
  | _, _ => []

/-- The call of the exchange a step makes. -/
def venueCalls : PipelineCall → Pipeline → List VenueCall
  | listInstrument instrument, _ => [.listInstrument instrument]
  | cancel, state =>
      state.validator.cancelling.map fun cancelled =>
        .cancelOrder cancelled.1 cancelled.2.1.teamId
  | submit, state =>
      state.matcher.submissions.map fun submission =>
        .submitOrder submission.1
  | checkPhases observed draw, state =>
      match state.matcher with
      | .idle => [.checkPhaseTransitions observed draw]
      | _ => []
  | _, _ => []

theorem posted_eq (call : PipelineCall) :
    call.posted = call.messages.flatMap OrderMessage.submissions := by
  cases call with
  | post message => exact (List.flatMap_singleton _ _).symm
  | _ => rfl

end PipelineCall

/--
The steps of the threads.  A thread which is elsewhere, or whose queue is
empty, stays where it is.
-/
inductive PipelineMove (state : Pipeline) :
    PipelineCall → Pipeline → Prop where
  | stays {call : PipelineCall}
      (messages : call.messages = [])
      (actions : call.actions state = [])
      (venueCalls : call.venueCalls state = []) :
      PipelineMove state call state
  | lists (instrument : Instrument) :
      PipelineMove state (.listInstrument instrument)
        (state.listInstrument instrument)
  | posts (message : OrderMessage) :
      PipelineMove state (.post message) (state.post message)
  | takes {message : OrderMessage} {rest : List OrderMessage}
      (validator : state.validator = .idle)
      (queued : state.orderQueue = message :: rest) :
      PipelineMove state .validatorTake
        { state with validator := .received message, orderQueue := rest }
  | validates {order : Order} {team : TeamInfo} {requestId : String}
      (currentTime : ℚ)
      (validator :
        state.validator = .received (.newOrder order team requestId)) :
      PipelineMove state (.validate currentTime)
        { state with
          validator :=
            afterValidation order team requestId
              (state.validation.validateNewOrder state.positions order
                team currentTime) }
  | forwards {order : Order} {team : TeamInfo} {requestId : String}
      (validator : state.validator = .forwarding order team requestId) :
      PipelineMove state .forward
        { state with
          matchQueue := state.matchQueue ++ [(order, team)]
          validator := .counting order team requestId }
  | counts {order : Order} {team : TeamInfo} {requestId : String}
      (currentTime : ℚ)
      (validator : state.validator = .counting order team requestId) :
      PipelineMove state (.count currentTime)
        { state with
          validation :=
            state.validation.incrementOrderCount team.teamId currentTime
          validator :=
            .replying requestId (.succeeded requestId order.orderId) }
  | cancels {orderId requestId : String} {team : TeamInfo}
      (answer : Except PyError (Bool × Option String))
      (validator :
        state.validator =
          .received (.cancelOrder orderId team requestId))
      (answered :
        answer =
          outcome (OrderValidationService.validateCancellation orderId
            team.teamId state.venue)) :
      PipelineMove state .cancel
        { state with
          venue :=
            finalState (OrderValidationService.validateCancellation
              orderId team.teamId state.venue)
          validator := afterCancellation orderId requestId answer
          executed := state.executed ++ [.cancel requestId] }
  | replies {requestId : String} {response : ApiResponse}
      (validator : state.validator = .replying requestId response) :
      PipelineMove state .reply { state with validator := .idle }
  | matcherTakes {order : Order} {team : TeamInfo}
      {rest : List (Order × TeamInfo)}
      (matcher : state.matcher = .idle)
      (queued : state.matchQueue = (order, team) :: rest) :
      PipelineMove state .matcherTake
        { state with
          matcher := .submitting order team
          matchQueue := rest }
  | submits {order : Order} {team : TeamInfo} {result : OrderResult}
      {venue : ExchangeVenue}
      (matcher : state.matcher = .submitting order team)
      (evaluates :
        ExchangeVenue.submitOrder order state.venue = .ok result venue) :
      PipelineMove state .submit
        { state with
          venue := venue
          matcher := .publishing { result, order, team }
          executed := state.executed ++ [.submission order] }
  | submitFails {order : Order} {team : TeamInfo} {exception : PyError}
      {venue : ExchangeVenue}
      (matcher : state.matcher = .submitting order team)
      (evaluates :
        ExchangeVenue.submitOrder order state.venue =
          .error exception venue) :
      PipelineMove state .submit
        { state with
          venue := venue
          matcher := .idle
          executed := state.executed ++ [.submission order] }
  | publishes {data : TradeData}
      (matcher : state.matcher = .publishing data) :
      PipelineMove state .publish
        { state with
          tradeQueue := state.tradeQueue ++ [data]
          matcher := .idle }
  | checks {observed : PhaseState} {draw : String → ℚ}
      {venue : ExchangeVenue}
      (matcher : state.matcher = .idle)
      (evaluates :
        ExchangeVenue.checkPhaseTransitions observed draw state.venue =
          .ok ⟨⟩ venue) :
      PipelineMove state (.checkPhases observed draw)
        { state with venue := venue }
  | checkFails {observed : PhaseState} {draw : String → ℚ}
      {exception : PyError} {venue : ExchangeVenue}
      (matcher : state.matcher = .idle)
      (evaluates :
        ExchangeVenue.checkPhaseTransitions observed draw state.venue =
          .error exception venue) :
      PipelineMove state (.checkPhases observed draw)
        { state with venue := venue, matcher := .stopped }
  | publisherTakes {data : TradeData} {rest : List TradeData}
      (publisher : state.publisher = none)
      (queued : state.tradeQueue = data :: rest) :
      PipelineMove state .publisherTake
        { state with publisher := some data, tradeQueue := rest }
  | publisherForwards {data : TradeData}
      (publisher : state.publisher = some data) :
      PipelineMove state .publisherForward
        { state with
          positionQueue := state.positionQueue ++ [data]
          publisher := none }
  | trackerTakes {data : TradeData} {rest : List TradeData}
      (tracker : state.tracker = [])
      (queued : state.positionQueue = data :: rest) :
      PipelineMove state .trackerTake
        { state with tracker := data.updates, positionQueue := rest }
  | tracks {update : PositionUpdate} {rest : List PositionUpdate}
      (tracker : state.tracker = update :: rest) :
      PipelineMove state .track
        { state with
          positions := update.apply state.positions
          tracker := rest }

/-! ## What each step does -/

namespace Pipeline

variable (state : Pipeline)

theorem validatorTake_moves :
    PipelineMove state .validatorTake state.validatorTake := by
  rw [Pipeline.validatorTake]
  split
  case h_1 message rest validator queued =>
    exact .takes validator queued
  case h_2 => exact .stays rfl rfl rfl

theorem validate_moves (currentTime : ℚ) :
    PipelineMove state (.validate currentTime)
      (state.validate currentTime) := by
  rw [Pipeline.validate]
  split
  case h_1 order team requestId validator =>
    exact .validates currentTime validator
  case h_2 => exact .stays rfl rfl rfl

theorem forward_moves :
    PipelineMove state .forward state.forward := by
  rw [Pipeline.forward]
  split
  case h_1 order team requestId validator =>
    exact .forwards validator
  case h_2 => exact .stays rfl rfl rfl

theorem count_moves (currentTime : ℚ) :
    PipelineMove state (.count currentTime) (state.count currentTime) := by
  rw [Pipeline.count]
  split
  case h_1 order team requestId validator =>
    exact .counts currentTime validator
  case h_2 => exact .stays rfl rfl rfl

theorem cancel_moves :
    PipelineMove state .cancel state.cancel := by
  rw [Pipeline.cancel]
  split
  case h_1 orderId team requestId validator =>
    refine .cancels _ validator ?_
    cases OrderValidationService.validateCancellation orderId
      team.teamId state.venue <;> rfl
  case h_2 elsewhere =>
    have none : state.validator.cancelling = [] := by
      rw [ValidatorState.cancelling.eq_def]
      split
      case h_1 validator => exact (elsewhere _ _ _ validator).elim
      case h_2 => rfl
    exact .stays rfl (congrArg (List.map _) none)
      (congrArg (List.map _) none)

theorem reply_moves :
    PipelineMove state .reply state.reply := by
  rw [Pipeline.reply]
  split
  case h_1 requestId response validator => exact .replies validator
  case h_2 => exact .stays rfl rfl rfl

theorem matcherTake_moves :
    PipelineMove state .matcherTake state.matcherTake := by
  rw [Pipeline.matcherTake]
  split
  case h_1 order team rest matcher queued =>
    exact .matcherTakes matcher queued
  case h_2 => exact .stays rfl rfl rfl

theorem submit_moves :
    PipelineMove state .submit state.submit := by
  rw [Pipeline.submit]
  split
  case h_1 order team matcher =>
    dsimp only
    split
    case h_1 result venue evaluates => exact .submits matcher evaluates
    case h_2 exception venue evaluates =>
      exact .submitFails matcher evaluates
  case h_2 elsewhere =>
    have none : state.matcher.submissions = [] := by
      rw [MatcherState.submissions.eq_def]
      split
      case h_1 matcher => exact (elsewhere _ _ matcher).elim
      case h_2 => rfl
    exact .stays rfl (congrArg (List.map _) none)
      (congrArg (List.map _) none)

theorem publish_moves :
    PipelineMove state .publish state.publish := by
  rw [Pipeline.publish]
  split
  case h_1 data matcher => exact .publishes matcher
  case h_2 => exact .stays rfl rfl rfl

theorem checkPhases_moves (observed : PhaseState) (draw : String → ℚ) :
    PipelineMove state (.checkPhases observed draw)
      (state.checkPhases observed draw) := by
  rw [Pipeline.checkPhases]
  split
  case h_1 matcher =>
    split
    case h_1 venue evaluates => exact .checks matcher evaluates
    case h_2 exception venue evaluates =>
      exact .checkFails matcher evaluates
  case h_2 elsewhere =>
    have none :
        PipelineCall.venueCalls (.checkPhases observed draw) state = [] := by
      rw [PipelineCall.venueCalls]
      split
      case h_1 matcher => exact (elsewhere matcher).elim
      case h_2 => rfl
    exact .stays rfl rfl none

theorem publisherTake_moves :
    PipelineMove state .publisherTake state.publisherTake := by
  rw [Pipeline.publisherTake]
  split
  case h_1 data rest publisher queued =>
    exact .publisherTakes publisher queued
  case h_2 => exact .stays rfl rfl rfl

theorem publisherForward_moves :
    PipelineMove state .publisherForward state.publisherForward := by
  rw [Pipeline.publisherForward]
  split
  case h_1 data publisher => exact .publisherForwards publisher
  case h_2 => exact .stays rfl rfl rfl

theorem trackerTake_moves :
    PipelineMove state .trackerTake state.trackerTake := by
  rw [Pipeline.trackerTake]
  split
  case h_1 data rest tracker queued =>
    exact .trackerTakes tracker queued
  case h_2 => exact .stays rfl rfl rfl

theorem track_moves :
    PipelineMove state .track state.track := by
  rw [Pipeline.track]
  split
  case h_1 update rest tracker => exact .tracks tracker
  case h_2 => exact .stays rfl rfl rfl

end Pipeline

/-- Every step is one of the moves. -/
theorem PipelineCall.execute_moves (call : PipelineCall)
    (state : Pipeline) : PipelineMove state call (call.execute state) := by
  cases call with
  | listInstrument instrument => exact .lists instrument
  | post message => exact .posts message
  | validatorTake => exact state.validatorTake_moves
  | validate currentTime => exact state.validate_moves currentTime
  | forward => exact state.forward_moves
  | count currentTime => exact state.count_moves currentTime
  | cancel => exact state.cancel_moves
  | reply => exact state.reply_moves
  | matcherTake => exact state.matcherTake_moves
  | submit => exact state.submit_moves
  | publish => exact state.publish_moves
  | checkPhases observed draw => exact state.checkPhases_moves observed draw
  | publisherTake => exact state.publisherTake_moves
  | publisherForward => exact state.publisherForward_moves
  | trackerTake => exact state.trackerTake_moves
  | track => exact state.track_moves

/-! ## The orders which are carried -/

/-- The order an action submits. -/
def ExchangeAction.orders : ExchangeAction → List Order
  | submission order => [order]
  | cancel _ => []

theorem PipelineCall.orders_actions (call : PipelineCall)
    (state : Pipeline) :
    (call.actions state).flatMap ExchangeAction.orders =
      (call.submitting state).map Prod.fst := by
  cases call with
  | submit =>
      rw [actions, List.flatMap_map]
      exact List.map_eq_flatMap.symm
  | cancel =>
      simp [actions, submitting, List.flatMap_map, ExchangeAction.orders]
  | _ => rfl

namespace Pipeline

variable (state : Pipeline)

/-- The orders on their way to the exchange, the first to arrive first. -/
def carried : List (Order × TeamInfo) :=
  state.matcher.submissions ++ state.matchQueue ++
    (state.validator.submissions ++
      state.orderQueue.flatMap OrderMessage.submissions)

/-- The orders the exchange has been asked to take in. -/
def submitted : List Order :=
  state.executed.flatMap ExchangeAction.orders

/-- The new orders of all messages, with their teams. -/
def posted : List (Order × TeamInfo) :=
  state.received.flatMap OrderMessage.submissions

end Pipeline

theorem afterValidation_submissions (order : Order) (team : TeamInfo)
    (requestId : String) (result : OrderResult) :
    (afterValidation order team requestId result).submissions.Sublist
      [(order, team)] := by
  rcases afterValidation_cases order team requestId result with
    ⟨_, forwards⟩ | ⟨_, response, replies, _⟩
  · rw [forwards]
    exact List.Sublist.refl _
  · rw [replies]
    exact List.nil_sublist _

theorem afterCancellation_submissions (orderId requestId : String)
    (answer : Except PyError (Bool × Option String)) :
    (afterCancellation orderId requestId answer).submissions = [] := by
  rcases afterCancellation_replies orderId requestId answer with
    ⟨response, replies, _⟩
  rw [replies]
  rfl

/-- A cancellation is a cancel of the exchange. -/
theorem validateCancellation_finalState (orderId teamId : String)
    (venue : ExchangeVenue) :
    finalState (OrderValidationService.validateCancellation orderId teamId
        venue) =
      finalState (ExchangeVenue.cancelOrder orderId teamId venue) := by
  rw [OrderValidationService.validateCancellation]
  split <;> simp_all

namespace PipelineMove

variable {state next : Pipeline} {call : PipelineCall}

theorem received (move : PipelineMove state call next) :
    next.received = state.received ++ call.messages := by
  cases move with
  | stays messages _ _ => rw [messages, List.append_nil]
  | posts message => rfl
  | _ => exact (List.append_nil _).symm

theorem executed (move : PipelineMove state call next) :
    next.executed = state.executed ++ call.actions state := by
  cases move with
  | stays _ actions _ => rw [actions, List.append_nil]
  | cancels answer validator _ =>
      rw [PipelineCall.actions, validator]
      rfl
  | submits matcher _ =>
      rw [PipelineCall.actions, matcher]
      rfl
  | submitFails matcher _ =>
      rw [PipelineCall.actions, matcher]
      rfl
  | _ => exact (List.append_nil _).symm

theorem posted (move : PipelineMove state call next) :
    next.posted = state.posted ++ call.posted := by
  rw [Pipeline.posted, move.received, List.flatMap_append,
    ← call.posted_eq]
  rfl

theorem submitted (move : PipelineMove state call next) :
    next.submitted =
      state.submitted ++ (call.submitting state).map Prod.fst := by
  rw [Pipeline.submitted, move.executed, List.flatMap_append,
    call.orders_actions]
  rfl

/-- The exchange is called as the step says. -/
theorem venue (move : PipelineMove state call next) :
    next.venue =
      replay VenueCall.execute state.venue (call.venueCalls state) := by
  cases move with
  | stays _ _ venueCalls => rw [venueCalls]; rfl
  | lists instrument => rfl
  | cancels answer validator _ =>
      rw [PipelineCall.venueCalls, validator]
      exact validateCancellation_finalState _ _ _
  | submits matcher evaluates =>
      rw [PipelineCall.venueCalls, matcher]
      exact (congrArg finalState evaluates).symm
  | submitFails matcher evaluates =>
      rw [PipelineCall.venueCalls, matcher]
      exact (congrArg finalState evaluates).symm
  | checks matcher evaluates =>
      rw [PipelineCall.venueCalls, matcher]
      exact (congrArg finalState evaluates).symm
  | checkFails matcher evaluates =>
      rw [PipelineCall.venueCalls, matcher]
      exact (congrArg finalState evaluates).symm
  | _ => rfl

/-- No order overtakes another one, and none appears from nowhere. -/
theorem carried (move : PipelineMove state call next) :
    (call.submitting state ++ next.carried).Sublist
      (state.carried ++ call.posted) := by
  cases move with
  | stays messages actions _ =>
      have none : call.submitting state = [] := by
        rw [← List.map_eq_nil_iff, ← call.orders_actions, actions]
        rfl
      rw [none]
      exact List.sublist_append_left _ _
  | posts message =>
      simp [Pipeline.carried, Pipeline.post, PipelineCall.posted,
        PipelineCall.submitting]
  | takes validator queued =>
      simp [Pipeline.carried, validator, queued, PipelineCall.submitting,
        PipelineCall.posted, ValidatorState.submissions]
  | validates currentTime validator =>
      show ([] ++ Pipeline.carried _).Sublist _
      rw [List.nil_append, Pipeline.carried, Pipeline.carried, validator]
      apply List.sublist_append_of_sublist_left
      apply (List.Sublist.refl _).append
      exact (afterValidation_submissions _ _ _ _).append
        (List.Sublist.refl _)
  | forwards validator =>
      simp [Pipeline.carried, validator, PipelineCall.submitting,
        PipelineCall.posted, ValidatorState.submissions]
  | counts currentTime validator =>
      simp [Pipeline.carried, validator, PipelineCall.submitting,
        PipelineCall.posted, ValidatorState.submissions]
  | cancels answer validator _ =>
      simp only [Pipeline.carried, validator,
        afterCancellation_submissions]
      exact List.sublist_append_left _ _
  | replies validator =>
      simp [Pipeline.carried, validator, PipelineCall.submitting,
        PipelineCall.posted, ValidatorState.submissions]
  | matcherTakes matcher queued =>
      simp [Pipeline.carried, matcher, queued, PipelineCall.submitting,
        PipelineCall.posted, MatcherState.submissions]
  | submits matcher _ =>
      simp [Pipeline.carried, matcher, PipelineCall.submitting,
        PipelineCall.posted, MatcherState.submissions]
  | submitFails matcher _ =>
      simp [Pipeline.carried, matcher, PipelineCall.submitting,
        PipelineCall.posted, MatcherState.submissions]
  | publishes matcher =>
      simp [Pipeline.carried, matcher, PipelineCall.submitting,
        PipelineCall.posted, MatcherState.submissions]
  | checkFails matcher _ =>
      simp [Pipeline.carried, matcher, PipelineCall.submitting,
        PipelineCall.posted, MatcherState.submissions]
  | _ => exact List.sublist_append_left _ _

/-- The messages which have been decided come before the others. -/
theorem queued (move : PipelineMove state call next)
    (queued : ∃ decided,
      state.received =
        decided ++ state.validator.undecided ++ state.orderQueue) :
    ∃ decided,
      next.received =
        decided ++ next.validator.undecided ++ next.orderQueue := by
  rcases queued with ⟨decided, received⟩
  cases move with
  | posts message =>
      refine ⟨decided, ?_⟩
      show state.received ++ [message] =
        decided ++ state.validator.undecided ++
          (state.orderQueue ++ [message])
      rw [received, List.append_assoc _ _ [message]]
  | takes validator queued =>
      refine ⟨decided, ?_⟩
      rw [validator, queued] at received
      simpa [ValidatorState.undecided] using received
  | validates currentTime validator =>
      refine ⟨decided ++ state.validator.undecided, ?_⟩
      rw [afterValidation_undecided, List.append_nil]
      exact received
  | forwards validator =>
      rw [validator] at received
      exact ⟨decided, received⟩
  | counts currentTime validator =>
      rw [validator] at received
      exact ⟨decided, received⟩
  | cancels answer validator _ =>
      refine ⟨decided ++ state.validator.undecided, ?_⟩
      rw [afterCancellation_undecided, List.append_nil]
      exact received
  | replies validator =>
      rw [validator] at received
      exact ⟨decided, received⟩
  | _ => exact ⟨decided, received⟩

end PipelineMove

namespace PipelineCall

variable {state : Pipeline}

/-- The exchange is only asked to take in the order which is submitted. -/
theorem mem_submitting (call : PipelineCall) {order : Order}
    (member : VenueCall.submitOrder order ∈ call.venueCalls state) :
    order ∈ (call.submitting state).map Prod.fst := by
  cases call with
  | listInstrument instrument => cases List.mem_singleton.mp member
  | cancel =>
      rcases List.mem_map.mp member with ⟨_, _, equal⟩
      cases equal
  | submit =>
      rcases List.mem_map.mp member with ⟨submission, held, equal⟩
      rcases VenueCall.submitOrder.inj equal with rfl
      exact List.mem_map_of_mem held
  | checkPhases observed draw =>
      rw [venueCalls] at member
      split at member
      · cases List.mem_singleton.mp member
      · cases member
  | _ => cases member

theorem nodup_messages (call : PipelineCall)
    (allowed : call.Allowed state)
    (distinct : (state.received.map OrderMessage.requestId).Nodup) :
    (state.received.map OrderMessage.requestId ++
      call.messages.map OrderMessage.requestId).Nodup := by
  cases call with
  | post message =>
      apply distinct.append (List.nodup_singleton _)
      exact List.disjoint_singleton.mpr allowed.1
  | _ =>
      show (_ ++ []).Nodup
      rw [List.append_nil]
      exact distinct

theorem nodup_posted (call : PipelineCall) (allowed : call.Allowed state)
    (distinct : (state.receivedOrders.map Order.orderId).Nodup) :
    (state.receivedOrders.map Order.orderId ++
      (call.posted.map Prod.fst).map Order.orderId).Nodup := by
  have none : (state.receivedOrders.map Order.orderId ++ []).Nodup := by
    rw [List.append_nil]
    exact distinct
  cases call with
  | post message =>
      cases message with
      | newOrder order team requestId =>
          apply distinct.append (List.nodup_singleton _)
          apply List.disjoint_singleton.mpr
          exact (allowed.2 (order, team) (List.mem_singleton_self _)).1
      | cancelOrder _ _ _ => exact none
  | _ => exact none

end PipelineCall

/-- A run takes in only the orders it submits. -/
theorem taken_of_run {start venue : ExchangeVenue}
    {calls : List VenueCall} (sound : VenueSound start)
    (run : Run VenueStep start calls venue)
    (whole : ∀ call ∈ calls, call.WholeQuantity) :
    ∀ order ∈ venue.market.heap.orders,
      order ∈ start.market.heap.orders ∨
        VenueCall.submitOrder order ∈ calls := by
  induction run with
  | refl => exact fun _ => Or.inl
  | snoc init last induction =>
      have earlier := fun call member =>
        whole call (List.mem_append_left _ member)
      have reached := VenueSound.of_run sound init earlier
      rcases last with ⟨allowed, rfl⟩
      intro order inHeap
      rcases execute_taken reached allowed
          (whole _ (List.mem_append_right _ (List.mem_singleton_self _)))
          order inHeap with old | rfl
      · rcases induction earlier order old with known | submitted
        · exact Or.inl known
        · exact Or.inr (List.mem_append_left _ submitted)
      · exact Or.inr
          (List.mem_append_right _ (List.mem_singleton_self _))

/-- A run which does not submit an id that is not live leaves it alone. -/
theorem NoLaterTrade.of_unsubmitted {orderId : String}
    {start venue : ExchangeVenue} {calls : List VenueCall}
    (sound : VenueSound start) (run : Run VenueStep start calls venue)
    (whole : ∀ call ∈ calls, call.WholeQuantity)
    (unsubmitted : ∀ order, VenueCall.submitOrder order ∈ calls →
      order.orderId ≠ orderId)
    (dead : ∀ order, start.Live order → order.orderId ≠ orderId) :
    (∀ order, venue.Live order → order.orderId ≠ orderId) ∧
      NoLaterTrade orderId start venue := by
  induction run with
  | refl => exact ⟨dead, .refl⟩
  | @snoc middle finish calls call init last induction =>
      have earlier := fun call member =>
        whole call (List.mem_append_left _ member)
      rcases induction earlier
          (fun order member =>
            unsubmitted order (List.mem_append_left _ member)) with
        ⟨reachedDead, untraded⟩
      have reached := VenueSound.of_run sound init earlier
      have advances := venueStep_advances reached.shape last
      rcases last with ⟨allowed, rfl⟩
      have final : call ∈ calls ++ [call] := List.mem_concat_self
      have others : ∀ order,
          VenueParty middle (call.execute middle) order →
            order.orderId ≠ orderId := by
        rintro order (live | ⟨taken, new⟩)
        · exact reachedDead order live
        · rcases execute_taken reached allowed (whole _ final) order
              taken with old | rfl
          · exact absurd old new
          · exact unsubmitted order final
      rcases advances.unnamed others with ⟨nextDead, more⟩
      exact ⟨nextDead, untraded.trans more⟩

/-! ## What holds in every state -/

/-- What holds of the pipeline whatever its threads have done. -/
structure PipelineSound (state : Pipeline) : Prop where
  venue : VenueSound state.venue
  taken : ∀ order ∈ state.venue.market.heap.orders,
    order ∈ state.submitted
  inOrder :
    (state.submitted ++ state.carried.map Prod.fst).Sublist
      state.receivedOrders
  distinct : (state.receivedOrders.map Order.orderId).Nodup
  requests : (state.received.map OrderMessage.requestId).Nodup
  own : ∀ submission ∈ state.posted,
    submission.2.teamId = submission.1.traderId ∧
      Whole submission.1.quantity
  carried : ∀ submission ∈ state.carried, submission ∈ state.posted
  queued : ∃ decided,
    state.received =
      decided ++ state.validator.undecided ++ state.orderQueue

namespace PipelineSound

variable {state next : Pipeline} {call : PipelineCall}

theorem start (cached baseline : PhaseState)
    (validator : ConstraintBasedOrderValidator) :
    PipelineSound (Pipeline.start cached baseline validator) where
  venue := VenueSound.new cached baseline
  taken := by simp [Pipeline.start, ExchangeVenue.new, Heap.empty]
  inOrder := List.Sublist.refl []
  distinct := List.nodup_nil
  requests := List.nodup_nil
  own := by simp [Pipeline.start, Pipeline.posted]
  carried := by
    simp [Pipeline.start, Pipeline.carried, MatcherState.submissions,
      ValidatorState.submissions]
  queued := ⟨[], rfl⟩

/-- The orders which have been received are told apart by their ids. -/
theorem eq_of_orderId_eq (sound : PipelineSound state)
    {order other : Order} (received : order ∈ state.receivedOrders)
    (otherReceived : other ∈ state.receivedOrders)
    (equal : order.orderId = other.orderId) : order = other :=
  List.inj_on_of_nodup_map sound.distinct received otherReceived equal

theorem received_of_taken (sound : PipelineSound state) {order : Order}
    (taken : order ∈ state.venue.market.heap.orders) :
    order ∈ state.receivedOrders :=
  sound.inOrder.subset
    (List.mem_append_left _ (sound.taken order taken))

/-- An order which is carried has an id the exchange does not know. -/
theorem fresh (sound : PipelineSound state)
    {submission : Order × TeamInfo}
    (member : submission ∈ state.carried) :
    ∀ taken ∈ state.venue.market.heap.orders,
      taken.orderId ≠ submission.1.orderId := by
  have distinct := (sound.inOrder.map Order.orderId).nodup sound.distinct
  rw [List.map_append] at distinct
  have apart := (List.nodup_append.mp distinct).2.2
  intro taken inHeap
  apply apart
  · exact List.mem_map_of_mem (sound.taken taken inHeap)
  · exact List.mem_map_of_mem (List.mem_map_of_mem member)

theorem mem_carried_of_matcher {submission : Order × TeamInfo}
    (member : submission ∈ state.matcher.submissions) :
    submission ∈ state.carried :=
  List.mem_append_left _ (List.mem_append_left _ member)

/-- What is known of an order which is about to be submitted. -/
theorem submitting (sound : PipelineSound state) {order : Order}
    {team : TeamInfo} (matcher : state.matcher = .submitting order team) :
    (VenueCall.submitOrder order).Allowed state.venue ∧
      Whole order.quantity ∧ team.teamId = order.traderId := by
  have held : (order, team) ∈ state.matcher.submissions := by
    rw [matcher]
    exact List.mem_singleton_self _
  have carried := mem_carried_of_matcher held
  have own := sound.own _ (sound.carried _ carried)
  refine ⟨?_, own.2, own.1⟩
  intro taken inHeap equal
  exact absurd equal (sound.fresh carried taken inHeap)

/-- The venue allows the calls of the threads. -/
theorem permitted (sound : PipelineSound state) (call : PipelineCall) :
    Permitted VenueCall.Allowed VenueCall.execute state.venue
      (call.venueCalls state) := by
  cases call with
  | listInstrument instrument => exact ⟨trivial, trivial⟩
  | cancel =>
      rw [PipelineCall.venueCalls, ValidatorState.cancelling.eq_def]
      split
      · exact ⟨trivial, trivial⟩
      · trivial
  | submit =>
      rw [PipelineCall.venueCalls]
      cases matcher : state.matcher with
      | submitting order team =>
          exact ⟨(sound.submitting matcher).1, trivial⟩
      | _ => trivial
  | checkPhases observed draw =>
      rw [PipelineCall.venueCalls]
      split
      · exact ⟨trivial, trivial⟩
      · trivial
  | _ => trivial

/-- The quantities the threads submit are whole. -/
theorem whole (sound : PipelineSound state) (call : PipelineCall) :
    ∀ venueCall ∈ call.venueCalls state, venueCall.WholeQuantity := by
  intro venueCall member
  cases call with
  | listInstrument instrument =>
      rcases List.mem_singleton.mp member with rfl
      trivial
  | cancel =>
      rcases List.mem_map.mp member with ⟨cancelled, _, rfl⟩
      trivial
  | submit =>
      rcases List.mem_map.mp member with ⟨submission, held, rfl⟩
      exact (sound.own submission
        (sound.carried submission (mem_carried_of_matcher held))).2
  | checkPhases observed draw =>
      rw [PipelineCall.venueCalls] at member
      split at member
      · rcases List.mem_singleton.mp member with rfl
        trivial
      · cases member
  | _ => cases member

/-- The calls a step makes of the exchange. -/
theorem venueRun (sound : PipelineSound state)
    (move : PipelineMove state call next) :
    Run VenueStep state.venue (call.venueCalls state) next.venue := by
  rw [move.venue]
  exact run_replay (sound.permitted call)

theorem step (sound : PipelineSound state) (allowed : call.Allowed state)
    (move : PipelineMove state call next) : PipelineSound next where
  venue :=
    VenueSound.of_run sound.venue (sound.venueRun move)
      (sound.whole call)
  taken := by
    intro order inHeap
    rw [move.submitted]
    rcases taken_of_run sound.venue (sound.venueRun move)
        (sound.whole call) order inHeap with old | new
    · exact List.mem_append_left _ (sound.taken order old)
    · exact List.mem_append_right _ (call.mem_submitting new)
  inOrder := by
    have carried := move.carried.map Prod.fst
    rw [List.map_append, List.map_append] at carried
    rw [move.submitted]
    show List.Sublist _ (next.posted.map Prod.fst)
    rw [move.posted, List.map_append]
    exact passOn_sublist sound.inOrder carried
  distinct := by
    show ((next.posted.map Prod.fst).map Order.orderId).Nodup
    rw [move.posted, List.map_append, List.map_append]
    exact call.nodup_posted allowed sound.distinct
  requests := by
    rw [move.received, List.map_append]
    exact call.nodup_messages allowed sound.requests
  own := by
    intro submission member
    rw [move.posted] at member
    rcases List.mem_append.mp member with old | new
    · exact sound.own submission old
    · cases call with
      | post message => exact (allowed.2 submission new).2
      | _ => cases new
  carried := by
    intro submission member
    rw [move.posted]
    have carried :=
      move.carried.subset (List.mem_append_right _ member)
    rcases List.mem_append.mp carried with old | new
    · exact List.mem_append_left _ (sound.carried submission old)
    · exact List.mem_append_right _ new
  queued := move.queued sound.queued

/-- Every state of every run is sound. -/
theorem of_run {start : Pipeline} {calls : List PipelineCall}
    (sound : PipelineSound start)
    (run : Run PipelineStep start calls state) : PipelineSound state :=
  run.invariant PipelineSound sound fun before call _ reached step => by
    rcases step with ⟨allowed, rfl⟩
    exact reached.step allowed (call.execute_moves before)

end PipelineSound

/-! ## Orders which are gone -/

/-- The order has been received and will not be traded any more. -/
structure Dropped (orderId : String) (state : Pipeline) : Prop where
  received : orderId ∈ state.receivedOrders.map Order.orderId
  uncarried : ∀ submission ∈ state.carried,
    submission.1.orderId ≠ orderId
  dead : ∀ order, state.venue.Live order → order.orderId ≠ orderId

namespace Dropped

variable {orderId : String} {state next : Pipeline}
  {call : PipelineCall}

theorem step (dropped : Dropped orderId state)
    (sound : PipelineSound state) (allowed : call.Allowed state)
    (move : PipelineMove state call next) :
    Dropped orderId next ∧ NoLaterTrade orderId state.venue next.venue := by
  have unsubmitted : ∀ order,
      VenueCall.submitOrder order ∈ call.venueCalls state →
        order.orderId ≠ orderId := by
    intro order member
    rcases List.mem_map.mp (call.mem_submitting member) with
      ⟨submission, submitting, rfl⟩
    cases call with
    | submit =>
        exact dropped.uncarried submission
          (PipelineSound.mem_carried_of_matcher submitting)
    | _ => cases submitting
  rcases NoLaterTrade.of_unsubmitted sound.venue (sound.venueRun move)
      (sound.whole call) unsubmitted dropped.dead with ⟨dead, untraded⟩
  refine ⟨⟨?_, ?_, dead⟩, untraded⟩
  · show orderId ∈ (next.posted.map Prod.fst).map Order.orderId
    rw [move.posted, List.map_append, List.map_append]
    exact List.mem_append_left _ dropped.received
  · intro submission member
    have carried :=
      move.carried.subset (List.mem_append_right _ member)
    rcases List.mem_append.mp carried with old | new
    · exact dropped.uncarried submission old
    · rintro rfl
      cases call with
      | post message =>
          exact (allowed.2 submission new).1 dropped.received
      | _ => cases new

/-- What has been dropped stays dropped and is never traded again. -/
theorem run {calls : List PipelineCall} (dropped : Dropped orderId state)
    (sound : PipelineSound state)
    (run : Run PipelineStep state calls next) :
    Dropped orderId next ∧
      NoLaterTrade orderId state.venue next.venue := by
  have all := run.invariant
    (fun reached =>
      PipelineSound reached ∧ Dropped orderId reached ∧
        NoLaterTrade orderId state.venue reached.venue)
    ⟨sound, dropped, .refl⟩
    (by
      rintro before call _ ⟨reached, stillDropped, untraded⟩
        ⟨allowed, rfl⟩
      have move := call.execute_moves before
      rcases stillDropped.step reached allowed move with ⟨after, more⟩
      exact ⟨reached.step allowed move, after, untraded.trans more⟩)
  exact all.2

end Dropped

/-! ## Teams used in examples -/

namespace Sample

/-- The team which offers contracts in the examples. -/
def sellingTeam : TeamInfo where
  teamId := "MAKER"
  role := "market_maker"

/-- The team which buys them; both have the role of a market maker. -/
def buyingTeam : TeamInfo where
  teamId := "TAKER"
  role := "market_maker"

end Sample

end InternTradingGame
