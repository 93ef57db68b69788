import InternTradingGame.Api.Refusals

/-!
# What the validator thread promises

The validator thread answers every message it has taken, one after the other
and each under the id of its own request.  It reports success for a new order
only when the order is on its way to the exchange, and for a cancel only when
the order of the team has been taken out of its book for good.
-/

namespace InternTradingGame

open Effects Sequences

/-! ## The messages in hand -/

/-- The message the thread has taken and may still turn away. -/
def ValidatorState.holding : ValidatorState → List OrderMessage
  | received message => [message]
  | forwarding order team requestId => [.newOrder order team requestId]
  | _ => []

theorem ValidatorState.submissions_eq (place : ValidatorState) :
    place.submissions = place.holding.flatMap OrderMessage.submissions := by
  cases place with
  | received message => exact (List.flatMap_singleton _ _).symm
  | _ => rfl

/-- The requests which have not been answered, the oldest first. -/
def Pipeline.requestsInHand (state : Pipeline) : List String :=
  state.validator.requestIds ++ state.orderQueue.map OrderMessage.requestId

/-- The request a step answers. -/
def PipelineCall.answering : PipelineCall → Pipeline → List String
  | reply, state =>
      match state.validator with
      | .replying requestId _ => [requestId]
      | _ => []
  | _, _ => []

section Moves

variable {state next : Pipeline} {call : PipelineCall}

/-- Requests are answered in the order in which they are received. -/
theorem PipelineMove.requestsInHand (move : PipelineMove state call next)
    (silent : call.answering state = []) :
    next.requestsInHand =
      state.requestsInHand ++
        call.messages.map OrderMessage.requestId := by
  have same : ∀ {ids : List String}, ids = ids ++ [].map
      OrderMessage.requestId := (List.append_nil _).symm
  cases move with
  | stays messages _ _ =>
      rw [messages]
      exact same
  | posts message =>
      show state.validator.requestIds ++
        (state.orderQueue ++ [message]).map OrderMessage.requestId = _
      rw [List.map_append, ← List.append_assoc]
      rfl
  | takes validator queued =>
      refine Eq.trans ?_ same
      simp only [Pipeline.requestsInHand, validator, queued]
      rfl
  | validates currentTime validator =>
      refine Eq.trans ?_ same
      simp only [Pipeline.requestsInHand, validator,
        afterValidation_requestIds]
      rfl
  | forwards validator =>
      refine Eq.trans ?_ same
      simp only [Pipeline.requestsInHand, validator]
      rfl
  | counts currentTime validator =>
      refine Eq.trans ?_ same
      simp only [Pipeline.requestsInHand, validator]
      rfl
  | cancels answer validator _ =>
      refine Eq.trans ?_ same
      simp only [Pipeline.requestsInHand, validator,
        afterCancellation_requestIds]
      rfl
  | replies validator =>
      rw [PipelineCall.answering, validator] at silent
      cases silent
  | _ => exact same

/-- The thread answers the oldest request it has in hand. -/
theorem Pipeline.requestsInHand_reply {requestId : String}
    {response : ApiResponse}
    (replying : state.validator = .replying requestId response) :
    state.requestsInHand =
      requestId :: (PipelineCall.execute .reply state).requestsInHand := by
  show _ = requestId :: state.reply.requestsInHand
  rw [requestsInHand, reply, replying]
  rfl

/-- A message in hand is kept, forwarded, or answered with a failure. -/
theorem PipelineMove.holding (move : PipelineMove state call next)
    {order : Order} {team : TeamInfo} {requestId : String}
    (held : OrderMessage.newOrder order team requestId ∈
      state.validator.holding ++ state.orderQueue) :
    OrderMessage.newOrder order team requestId ∈
        next.validator.holding ++ next.orderQueue ∨
      order ∈ next.matched ∨
        ∃ response, next.validator = .replying requestId response ∧
          response.success = false := by
  cases move with
  | posts message =>
      left
      show _ ∈ state.validator.holding ++ (state.orderQueue ++ [message])
      rw [← List.append_assoc]
      exact List.mem_append_left _ held
  | takes validator queued =>
      left
      rw [validator, queued] at held
      exact held
  | @validates asked asker asking currentTime validator =>
      rw [validator] at held
      rcases List.mem_cons.mp held with same | queued
      · injection same with sameOrder sameTeam sameRequest
        subst sameOrder sameTeam sameRequest
        rcases afterValidation_cases order team requestId
            (state.validation.validateNewOrder state.positions order team
              currentTime) with
          ⟨_, forwards⟩ | ⟨_, response, replies, _, failed⟩
        · left
          show _ ∈ (afterValidation _ _ _ _).holding ++ _
          rw [forwards]
          exact List.mem_cons_self
        · exact Or.inr (Or.inr ⟨response, replies, failed⟩)
      · exact Or.inl (List.mem_append_right _ queued)
  | forwards validator =>
      rw [validator] at held
      rcases List.mem_cons.mp held with same | queued
      · injection same with sameOrder sameTeam sameRequest
        subst sameOrder
        right
        left
        apply List.mem_append_right
        apply List.mem_map_of_mem (f := Prod.fst) (a := (order, _))
        exact List.mem_append_right _ List.mem_concat_self
      · exact Or.inl queued
  | counts currentTime validator =>
      rw [validator] at held
      exact Or.inl held
  | cancels answer validator _ =>
      rw [validator] at held
      rcases List.mem_cons.mp held with same | queued
      · cases same
      · exact Or.inl (List.mem_append_right _ queued)
  | replies validator =>
      rw [validator] at held
      exact Or.inl held
  | _ => exact Or.inl held

end Moves

/-! ## Cancels which succeed -/

/-- A cancel which succeeds takes an order of the team out for good. -/
theorem VenueSound.cancelled_of_ok {venue : ExchangeVenue}
    (sound : VenueSound venue) {orderId teamId : String}
    {reason : Option String}
    (succeeds :
      outcome (OrderValidationService.validateCancellation orderId teamId
        venue) = .ok (true, reason)) :
    (∃ order ∈ venue.market.heap.orders,
        order.orderId = orderId ∧ order.traderId = teamId) ∧
      Gone orderId
        (finalState (OrderValidationService.validateCancellation orderId
          teamId venue)) := by
  rcases cancelOrder_cases_venue sound.shape orderId teamId with
    ⟨order, next, cancellable, evaluates, cancelled⟩ | ⟨none, refuses⟩
  · have gone : Gone order.orderId next := by
      apply cancelled.gone sound.shape cancellable.rests
      intro pending
      exact sound.apart cancellable.rests pending rfl
    constructor
    · exact ⟨order, sound.shape.market.registered order cancellable.rests,
        cancellable.orderId, cancellable.owner⟩
    · rw [validateCancellation_finalState, evaluates]
      exact cancellable.orderId ▸ gone
  · rw [OrderValidationService.validateCancellation] at succeeds
    rcases refuses with answers | ⟨exception, raises⟩
    · rw [answers] at succeeds
      cases succeeds
    · rw [raises] at succeeds
      cases exception <;> cases succeeds

/-! ## Promises -/

/-- What has been done for a message which is answered with success. -/
def Pipeline.Fulfils (state : Pipeline) (response : ApiResponse) :
    OrderMessage → Prop
  | .newOrder order _ _ =>
      response.orderId = some order.orderId ∧ order ∈ state.matched
  | .cancelOrder orderId team _ =>
      response.orderId = some orderId ∧ Dropped orderId state ∧
        ∃ order ∈ state.receivedOrders,
          order.orderId = orderId ∧ order.traderId = team.teamId

/-- The response is that to the request, and its success is earned. -/
structure Pipeline.Honours (state : Pipeline) (requestId : String)
    (response : ApiResponse) : Prop where
  named : response.requestId = requestId
  fulfils : response.success = true → ∀ message ∈ state.received,
    message.requestId = requestId → state.Fulfils response message

section Promises

variable {state next : Pipeline} {call : PipelineCall}
  {requestId : String} {response : ApiResponse}

/-- What has been fulfilled stays so. -/
theorem Pipeline.Fulfils.step {message : OrderMessage}
    (fulfils : state.Fulfils response message)
    (sound : PipelineSound state) (allowed : call.Allowed state)
    (move : PipelineMove state call next) :
    next.Fulfils response message := by
  cases message with
  | newOrder order team requestId =>
      exact ⟨fulfils.1, move.matched fulfils.2⟩
  | cancelOrder orderId team requestId =>
      rcases fulfils with ⟨named, dropped, order, received, owned⟩
      refine ⟨named, (dropped.step sound allowed move).1, order, ?_, owned⟩
      show order ∈ next.posted.map Prod.fst
      rw [move.posted, List.map_append]
      exact List.mem_append_left _ received

theorem Pipeline.Honours.step (honours : state.Honours requestId response)
    (known : requestId ∈ state.received.map OrderMessage.requestId)
    (sound : PipelineSound state) (allowed : call.Allowed state)
    (move : PipelineMove state call next) :
    next.Honours requestId response where
  named := honours.named
  fulfils := by
    intro succeeded message member same
    have old := move.received_of_known allowed (same ▸ known) member
    exact (honours.fulfils succeeded message old same).step sound allowed
      move

/-- A response to the only message of its request. -/
theorem PipelineSound.honours (sound : PipelineSound state)
    {message : OrderMessage} (received : message ∈ state.received)
    (named : response.requestId = message.requestId)
    (fulfils : response.success = true → state.Fulfils response message) :
    state.Honours message.requestId response where
  named := named
  fulfils := by
    intro succeeded other otherReceived same
    rw [sound.message_unique otherReceived received same]
    exact fulfils succeeded

/-- Every reply the thread is about to give is earned. -/
structure KeepsPromises (state : Pipeline) : Prop where
  holding : ∀ message ∈ state.validator.holding,
    message ∈ state.received
  forwarded : ∀ order team requestId,
    state.validator = .counting order team requestId →
      .newOrder order team requestId ∈ state.received ∧
        order ∈ state.matched
  replies : ∀ requestId response,
    state.validator = .replying requestId response →
      state.Honours requestId response

theorem KeepsPromises.start (cached baseline : PhaseState)
    (validator : ConstraintBasedOrderValidator) :
    KeepsPromises (Pipeline.start cached baseline validator) where
  holding := by
    intro message member
    cases member
  forwarded := by
    intro order team requestId counting
    cases counting
  replies := by
    intro requestId response replying
    cases replying

/-- A step after which the thread is about to reply. -/
theorem KeepsPromises.of_replying
    (holding : next.validator.holding = [])
    (silent : ∀ order team requestId,
      next.validator ≠ .counting order team requestId)
    (replies : ∀ requestId response,
      next.validator = .replying requestId response →
        next.Honours requestId response) : KeepsPromises next where
  holding := by
    rw [holding]
    exact nofun
  forwarded := by
    intro order team requestId counting
    exact absurd counting (silent order team requestId)
  replies := replies

/-- A cancel which is answered with success has been executed. -/
theorem PipelineSound.cancels (sound : PipelineSound state)
    {orderId : String} {team : TeamInfo}
    {answer : Except PyError (Bool × Option String)}
    (validator :
      state.validator = .received (.cancelOrder orderId team requestId))
    (answered :
      answer =
        outcome (OrderValidationService.validateCancellation orderId
          team.teamId state.venue))
    (succeeded : ∃ reason, answer = .ok (true, reason))
    (named : response.orderId = some orderId) {place : ValidatorState}
    (empty : place.submissions = []) {executed : List ExchangeAction} :
    Pipeline.Fulfils
      { state with
        venue :=
          finalState (OrderValidationService.validateCancellation orderId
            team.teamId state.venue)
        validator := place
        executed := executed }
      response (.cancelOrder orderId team requestId) := by
  rcases succeeded with ⟨reason, isOk⟩
  rcases sound.venue.cancelled_of_ok (answered.symm.trans isOk) with
    ⟨⟨order, taken, sameId, owner⟩, gone⟩
  have received := sound.received_of_taken taken
  refine ⟨named, ⟨?_, ?_, gone.dead⟩, order, received, sameId, owner⟩
  · exact sameId ▸ List.mem_map_of_mem received
  · intro submission member equal
    apply sound.fresh ?_ order taken (sameId.trans equal.symm)
    rw [Pipeline.carried, validator]
    simp only [Pipeline.carried, empty] at member
    exact member

/-- A step which leaves the thread where it is keeps the promises. -/
theorem KeepsPromises.stays (promises : KeepsPromises state)
    (truly : RepliesTruly state) (sound : PipelineSound state)
    (allowed : call.Allowed state) (move : PipelineMove state call next)
    (validator : next.validator = state.validator) :
    KeepsPromises next where
  holding := by
    intro message member
    rw [validator] at member
    exact move.received_subset (promises.holding message member)
  forwarded := by
    intro order team requestId counting
    rw [validator] at counting
    rcases promises.forwarded order team requestId counting with
      ⟨received, matched⟩
    exact ⟨move.received_subset received, move.matched matched⟩
  replies := by
    intro requestId response replying
    rw [validator] at replying
    apply (promises.replies requestId response replying).step ?_ sound
      allowed move
    apply truly.asked
    rw [replying]
    exact List.mem_singleton_self _

/-- Every step keeps the promises. -/
theorem KeepsPromises.step (promises : KeepsPromises state)
    (truly : RepliesTruly state) (sound : PipelineSound state)
    (allowed : call.Allowed state) (move : PipelineMove state call next) :
    KeepsPromises next := by
  have soundNext := sound.step allowed move
  have same := promises.stays truly sound allowed move
  cases move with
  | @takes message rest validator queued =>
      constructor
      · intro other member
        rcases List.mem_singleton.mp member with rfl
        rcases sound.queued with ⟨decided, received⟩
        show _ ∈ state.received
        rw [received, queued]
        exact List.mem_append_right _ List.mem_cons_self
      · intro order team requestId counting
        cases counting
      · intro requestId response replying
        cases replying
  | @validates order team requestId currentTime validator =>
      have taken := sound.mem_received validator
      have decides := afterValidation_cases order team requestId
        (state.validation.validateNewOrder state.positions order team
          currentTime)
      constructor
      · intro message member
        rcases decides with ⟨_, forwards⟩ | ⟨_, response, replies, _⟩
        · rw [show _ = ValidatorState.forwarding _ _ _ from forwards]
            at member
          rw [List.mem_singleton.mp member]
          exact taken
        · rw [show _ = ValidatorState.replying _ _ from replies] at member
          cases member
      · intro _ _ _ counting
        rcases decides with ⟨_, forwards⟩ | ⟨_, response, replies, _⟩
        · cases forwards.symm.trans counting
        · cases replies.symm.trans counting
      · intro answered response replying
        rcases afterValidation_failed replying with ⟨rfl, named, failed⟩
        apply soundNext.honours taken named
        intro succeeded
        cases failed.symm.trans succeeded
  | @forwards order team requestId validator =>
      constructor
      · intro message member
        cases member
      · intro other asker asked counting
        cases counting
        constructor
        · apply promises.holding
          rw [validator]
          exact List.mem_singleton_self _
        · apply List.mem_append_right
          apply List.mem_map_of_mem (f := Prod.fst) (a := (order, team))
          exact List.mem_append_right _ List.mem_concat_self
      · intro asked response replying
        cases replying
  | @counts order team requestId currentTime validator =>
      rcases promises.forwarded order team requestId validator with
        ⟨received, matched⟩
      apply KeepsPromises.of_replying rfl
      · intro _ _ _ counting
        cases counting
      · intro answered response replying
        cases replying
        apply soundNext.honours received rfl
        exact fun _ => ⟨rfl, matched⟩
  | @cancels orderId requestId team answer validator answered =>
      have taken := sound.mem_received validator
      apply KeepsPromises.of_replying
      · show (afterCancellation _ _ _).holding = []
        rcases afterCancellation_replies orderId requestId answer with
          ⟨given, replies, _⟩
        rw [replies]
        rfl
      · intro _ _ _ counting
        rcases afterCancellation_replies orderId requestId answer with
          ⟨given, replies, _⟩
        cases replies.symm.trans counting
      · intro asked response replying
        rcases afterCancellation_replying replying with
          ⟨rfl, named, earned⟩
        apply soundNext.honours taken named
        intro succeeded
        rcases earned succeeded with ⟨orderNamed, isOk⟩
        exact sound.cancels validator answered isOk orderNamed
          (afterCancellation_submissions _ _ _)
  | replies validator =>
      constructor
      · intro message member
        cases member
      · intro order team requestId counting
        cases counting
      · intro requestId response replying
        cases replying
  | _ => exact same rfl

end Promises

end InternTradingGame
