import InternTradingGame.Pipeline.Flow

/-!
# The order in which requests take effect

Requests are taken from one queue, but an accepted order has to pass the
match queue while a cancel does not.  The requests take effect in the order
in which they were received as long as no cancel is executed while an
accepted order waits for the exchange.
-/

namespace InternTradingGame

open Effects Sequences

/-! ## The agenda of the exchange -/

namespace Pipeline

/-- What the exchange will be made to do, the first to come first. -/
def agenda (state : Pipeline) : List ExchangeAction :=
  (state.matcher.submissions ++ state.matchQueue).map
      (fun submission => .submission submission.1) ++
    (state.validator.actions ++
      state.orderQueue.map OrderMessage.action)

end Pipeline

/-- No accepted order waits for the exchange while a cancel is executed. -/
def PipelineCall.Waits : PipelineCall → Pipeline → Prop
  | cancel, state =>
      state.validator.cancelling ≠ [] →
        state.matcher.submissions = [] ∧ state.matchQueue = []
  | _, _ => True

instance (call : PipelineCall) (state : Pipeline) :
    Decidable (call.Waits state) := by
  rcases call
  case cancel =>
      exact inferInstanceAs
        (Decidable (state.validator.cancelling ≠ [] →
          state.matcher.submissions = [] ∧ state.matchQueue = []))
  all_goals exact inferInstanceAs (Decidable True)

theorem afterValidation_actions (order : Order) (team : TeamInfo)
    (requestId : String) (result : OrderResult) :
    (afterValidation order team requestId result).actions.Sublist
      [.submission order] := by
  rcases afterValidation_cases order team requestId result with
    ⟨_, forwards⟩ | ⟨_, response, replies, _⟩
  · rw [forwards]
    exact List.Sublist.refl _
  · rw [replies]
    exact List.nil_sublist _

theorem afterCancellation_actions (orderId requestId : String)
    (answer : Except PyError (Bool × Option String)) :
    (afterCancellation orderId requestId answer).actions = [] := by
  rcases afterCancellation_replies orderId requestId answer with
    ⟨response, replies, _⟩
  rw [replies]
  rfl

/-- A step which waits does not let one action overtake another. -/
theorem PipelineMove.agenda {state next : Pipeline} {call : PipelineCall}
    (move : PipelineMove state call next) (waits : call.Waits state) :
    (call.actions state ++ next.agenda).Sublist
      (state.agenda ++ call.messages.map OrderMessage.action) := by
  cases move with
  | stays _ actions _ =>
      rw [actions]
      exact List.sublist_append_left _ _
  | posts message =>
      simp [Pipeline.agenda, Pipeline.post, PipelineCall.actions,
        PipelineCall.messages]
  | takes validator queued =>
      simp [Pipeline.agenda, validator, queued, PipelineCall.actions,
        PipelineCall.messages, ValidatorState.actions]
  | validates currentTime validator =>
      show ([] ++ Pipeline.agenda _).Sublist _
      rw [List.nil_append, Pipeline.agenda, Pipeline.agenda, validator]
      apply List.sublist_append_of_sublist_left
      apply (List.Sublist.refl _).append
      exact (afterValidation_actions _ _ _ _).append (List.Sublist.refl _)
  | forwards validator =>
      simp [Pipeline.agenda, validator, PipelineCall.actions,
        PipelineCall.messages, ValidatorState.actions]
  | counts currentTime validator =>
      simp [Pipeline.agenda, validator, PipelineCall.actions,
        PipelineCall.messages, ValidatorState.actions]
  | cancels answer validator _ =>
      have cancelling : state.validator.cancelling ≠ [] := by
        rw [validator]
        exact List.cons_ne_nil _ _
      rcases waits cancelling with ⟨matcher, matchQueue⟩
      simp only [Pipeline.agenda, PipelineCall.actions, validator, matcher,
        matchQueue, afterCancellation_actions]
      exact List.sublist_append_left _ _
  | replies validator =>
      simp [Pipeline.agenda, validator, PipelineCall.actions,
        PipelineCall.messages, ValidatorState.actions]
  | matcherTakes matcher queued =>
      simp [Pipeline.agenda, matcher, queued, PipelineCall.actions,
        PipelineCall.messages, MatcherState.submissions]
  | submits matcher _ =>
      simp [Pipeline.agenda, matcher, PipelineCall.actions,
        PipelineCall.messages, MatcherState.submissions]
  | submitFails matcher _ =>
      simp [Pipeline.agenda, matcher, PipelineCall.actions,
        PipelineCall.messages, MatcherState.submissions]
  | publishes matcher =>
      simp [Pipeline.agenda, matcher, PipelineCall.actions,
        PipelineCall.messages, MatcherState.submissions]
  | checkFails matcher _ =>
      simp [Pipeline.agenda, matcher, PipelineCall.actions,
        PipelineCall.messages, MatcherState.submissions]
  | _ => exact List.sublist_append_left _ _

/-- What has been executed comes before the agenda. -/
theorem agenda_sublist {start state : Pipeline}
    {calls : List PipelineCall}
    (run : Run PipelineStep start calls state)
    (waits : Permitted PipelineCall.Waits PipelineCall.execute start calls)
    (initial :
      (start.executed ++ start.agenda).Sublist
        (start.received.map OrderMessage.action)) :
    (state.executed ++ state.agenda).Sublist
      (state.received.map OrderMessage.action) := by
  induction run with
  | refl => exact initial
  | @snoc middle finish calls call init last induction =>
      rw [permitted_snoc, ← init.eq_replay] at waits
      rcases last with ⟨_, rfl⟩
      have move := call.execute_moves middle
      rw [move.executed, move.received, List.map_append]
      exact passOn_sublist (induction waits.1)
        (move.agenda waits.2)

/-! ## Orders which are not found -/

/--
A cancel, whose message stands behind the one of the same team's order, is
answered with "order not found".
-/
def AnsweredNotFound (order : Order) (state : Pipeline) : Prop :=
  ∃ team poster requestId earlierId,
    state.validator =
        .received (.cancelOrder order.orderId team requestId) ∧
      [OrderMessage.newOrder order poster earlierId,
          .cancelOrder order.orderId team requestId].Sublist
        state.received ∧
      poster.teamId = team.teamId ∧
      state.cancel.validator =
        .replying requestId
          (.cancelFailed requestId OrderValidationService.orderNotFound)

/--
The order a cancel is about has not been collected by the batch engine, and
if it rests in a book the phase lets it be cancelled.
-/
def PipelineCall.Findable : PipelineCall → Pipeline → Prop
  | cancel, state =>
      ∀ cancelled ∈ state.validator.cancelling,
        (∀ order ∈ ordersOf state.venue.pendingOrders.entries,
            order.orderId = cancelled.1 →
              order.traderId ≠ cancelled.2.1.teamId) ∧
          (state.venue.currentPhaseState.isOrderCancellationAllowed =
              true ∨
            ∀ found ∈
                (ExchangeVenue.findOrder state.venue.market
                  cancelled.1).toList,
              found.2.traderId ≠ cancelled.2.1.teamId)
  | _, _ => True

instance (call : PipelineCall) (state : Pipeline) :
    Decidable (call.Findable state) := by
  rcases call
  case cancel =>
      exact inferInstanceAs
        (Decidable (∀ cancelled ∈ state.validator.cancelling, _ ∧ _))
  all_goals exact inferInstanceAs (Decidable True)

/-- Both conditions on a cancel. -/
def PipelineCall.Orderly (call : PipelineCall) (state : Pipeline) :
    Prop :=
  call.Waits state ∧ call.Findable state

instance (call : PipelineCall) (state : Pipeline) :
    Decidable (call.Orderly state) :=
  inferInstanceAs (Decidable (_ ∧ _))

section NotFound

variable {state : Pipeline} {order : Order}

/-- An order before a cancel has passed the queues when it waits. -/
theorem AnsweredNotFound.uncarried
    (answered : AnsweredNotFound order state)
    (sound : PipelineSound state)
    (waits : PipelineCall.cancel.Waits state) :
    ∀ submission ∈ state.carried,
      submission.1.orderId ≠ order.orderId := by
  rcases answered with
    ⟨team, poster, requestId, earlierId, validator, inOrder, _, _⟩
  rcases waits (by rw [validator]; nofun) with ⟨matcher, matchQueue⟩
  rcases sound.queued with ⟨decided, received⟩
  rw [validator] at received
  have split : state.received =
      decided ++ .cancelOrder order.orderId team requestId ::
        state.orderQueue := by
    rw [received, List.append_assoc]
    rfl
  have distinct := sound.requests.of_map
  rw [split] at distinct inOrder
  have before := mem_of_pair_sublist distinct inOrder
  intro submission member equal
  rw [Pipeline.carried, matcher, matchQueue, validator] at member
  have queued : submission ∈
      state.orderQueue.flatMap OrderMessage.submissions := member
  have distinctIds := sound.distinct
  rw [Pipeline.receivedOrders, split, List.flatMap_append,
    List.flatMap_cons, List.map_append, List.map_append] at distinctIds
  apply (List.nodup_append.mp distinctIds).2.2
  · exact List.mem_map_of_mem (List.mem_map_of_mem
      (List.mem_flatMap.mpr ⟨_, before, List.mem_singleton_self _⟩))
  · exact List.mem_map_of_mem (List.mem_map_of_mem queued)
  · exact equal.symm

/-- What the thread answers to a cancel. -/
theorem Pipeline.validator_cancel {orderId requestId : String}
    {team : TeamInfo}
    (validator :
      state.validator = .received (.cancelOrder orderId team requestId)) :
    state.cancel.validator =
      afterCancellation orderId requestId
        (outcome (OrderValidationService.validateCancellation orderId
          team.teamId state.venue)) := by
  rw [cancel, validator]
  dsimp only
  cases OrderValidationService.validateCancellation orderId team.teamId
    state.venue <;> rfl

/-- A cancel of a resting order by its owner is not refused. -/
theorem validateCancellation_works {venue : ExchangeVenue}
    (sound : VenueSound venue) (rests : venue.market.Rests order)
    (allowed : venue.currentPhaseState.isOrderCancellationAllowed = true) :
    outcome (OrderValidationService.validateCancellation order.orderId
      order.traderId venue) = .ok (true, none) := by
  rcases cancelOrder_cases_venue sound.shape order.orderId
      order.traderId with
    ⟨_, next, _, evaluates, _⟩ | ⟨none, _⟩
  · rw [OrderValidationService.validateCancellation, evaluates]
    rfl
  · exact absurd
      ⟨allowed, sound.known order (Or.inl rests), rests, rfl, rfl⟩
      (none order)

/-- An order which is not found has left the exchange for good. -/
theorem AnsweredNotFound.dropped
    (answered : AnsweredNotFound order state)
    (sound : PipelineSound state)
    (orderly : PipelineCall.cancel.Orderly state) :
    Dropped order.orderId state := by
  have uncarried := answered.uncarried sound orderly.1
  rcases answered with
    ⟨team, poster, requestId, earlierId, validator, inOrder, same, reply⟩
  have posted : (order, poster) ∈ state.posted :=
    List.mem_flatMap.mpr
      ⟨_, inOrder.subset List.mem_cons_self, List.mem_singleton_self _⟩
  have received : order ∈ state.receivedOrders :=
    List.mem_map_of_mem posted
  have owner : order.traderId = team.teamId :=
    (sound.own _ posted).1.symm.trans same
  refine ⟨List.mem_map_of_mem received, uncarried, ?_⟩
  intro other live equal
  have taken := sound.venue.shape.live_taken live
  rcases sound.eq_of_orderId_eq (sound.received_of_taken taken)
    received equal with rfl
  have cancelling :
      (other.orderId, team, requestId) ∈ state.validator.cancelling := by
    rw [validator]
    exact List.mem_singleton_self _
  rcases orderly.2 _ cancelling with ⟨uncollected, open_⟩
  have rests : state.venue.market.Rests other := by
    rcases live with rests | pending
    · exact rests
    · exact absurd owner
        (uncollected other (ExchangeVenue.mem_of_pending pending) rfl)
  have allowed :
      state.venue.currentPhaseState.isOrderCancellationAllowed = true := by
    rcases open_ with allowed | unowned
    · exact allowed
    · cases found : ExchangeVenue.findOrder state.venue.market
          other.orderId with
      | none =>
          exact absurd rfl
            (findOrder_eq_none sound.venue.shape.market.ownBooks found
              other rests)
      | some place =>
          rcases findOrder_eq_some sound.venue.shape.market.ownBooks
              found with ⟨book, listed, member, sameId⟩
          have isOther : place.2 = other :=
            sound.venue.shape.market.eq_of_orderId_eq
              (sound.venue.shape.market.registered _
                ⟨place.1, book, listed, member⟩) taken sameId
          rw [found] at unowned
          exact absurd (isOther ▸ owner)
            (unowned place (List.mem_singleton_self _))
  have works := validateCancellation_works sound.venue rests allowed
  rw [Pipeline.validator_cancel validator, ← owner, works] at reply
  cases reply

end NotFound

/-! ## First in, first out -/

/--
The exchange has executed the submissions and the cancels in the order of
their messages, and an order which was not found by its team's cancel was not
live then, is not live now and has not been traded since.
-/
structure FirstInFirstOut (start : Pipeline) (calls : List PipelineCall) :
    Prop where
  inOrder :
    (replay PipelineCall.execute start calls).executed.Sublist
      ((replay PipelineCall.execute start calls).received.map
        OrderMessage.action)
  notFound : ∀ earlier later order,
    calls = earlier ++ .cancel :: later →
      AnsweredNotFound order
          (replay PipelineCall.execute start earlier) →
        ¬ (replay PipelineCall.execute start earlier).venue.Live order ∧
          ¬ (replay PipelineCall.execute start calls).venue.Live order ∧
          NoLaterTrade order.orderId
            (replay PipelineCall.execute start earlier).venue
            (replay PipelineCall.execute start calls).venue

/--
Requests take effect in the order in which they were received if every
cancel is executed when no accepted order waits for the exchange and when
the order can be found.
-/
theorem firstInFirstOut_of_orderly {cached baseline : PhaseState}
    {validator : ConstraintBasedOrderValidator}
    {calls : List PipelineCall}
    (allowed : Permitted PipelineCall.Allowed PipelineCall.execute
      (Pipeline.start cached baseline validator) calls)
    (orderly : Permitted PipelineCall.Orderly PipelineCall.execute
      (Pipeline.start cached baseline validator) calls) :
    FirstInFirstOut (Pipeline.start cached baseline validator) calls := by
  have run := run_replay allowed
  have initial := PipelineSound.start cached baseline validator
  have always := run.permitted_iff_forall.mp orderly
  constructor
  · have waits : Permitted PipelineCall.Waits PipelineCall.execute
        (Pipeline.start cached baseline validator) calls := by
      apply run.permitted_iff_forall.mpr
      intro earlier call later state split reaches
      exact (always earlier call later state split reaches).1
    exact (List.sublist_append_left _ _).trans
      (agenda_sublist run waits (List.Sublist.refl []))
  · rintro earlier later order rfl answered
    rcases run.split with ⟨state, first, rest⟩
    rw [← first.eq_replay] at answered ⊢
    have sound := initial.of_run first
    have dropped := answered.dropped sound
      (always earlier .cancel later state rfl first)
    rcases dropped.run sound rest with ⟨after, untraded⟩
    exact ⟨fun live => dropped.dead order live rfl,
      fun live => after.dead order live rfl, untraded⟩

/-! ## A cancel behind the order it is about -/

namespace Sample

/-- An order is posted with its cancel, validated, and accepted. -/
def cancelPosted : List PipelineCall :=
  [ .checkPhases (PhaseState.default .continuous) fun _ => 0,
    .listInstrument { symbol := "CALL" },
    .post (.newOrder sellTen sellingTeam "NEW"),
    .post (.cancelOrder "SELL" sellingTeam "CANCEL"),
    .validatorTake, .validate 0, .forward, .count 0, .reply,
    .validatorTake ]

end Sample

/-- The cancel waits until the exchange has taken the order in. -/
theorem firstInFirstOut_of_orderly_cancel :
    FirstInFirstOut
      (Pipeline.start (PhaseState.default .closed)
        (PhaseState.default .closed) Sample.onePerSecondValidator)
      (Sample.cancelPosted ++ [.matcherTake, .submit, .cancel]) :=
  firstInFirstOut_of_orderly (by decide +kernel) (by decide +kernel)

/-- The cancel is executed while the order is in the match queue. -/
theorem cancel_overtakes :
    ¬ ∀ (cached baseline : PhaseState)
        (validator : ConstraintBasedOrderValidator)
        (calls : List PipelineCall),
      Permitted PipelineCall.Allowed PipelineCall.execute
          (Pipeline.start cached baseline validator) calls →
        FirstInFirstOut (Pipeline.start cached baseline validator)
          calls := by
  intro fifo
  have served := fifo (PhaseState.default .closed)
    (PhaseState.default .closed) Sample.onePerSecondValidator
    (Sample.cancelPosted ++ [.cancel, .matcherTake, .submit])
    (by decide +kernel)
  have overtaken : ¬ (replay PipelineCall.execute
      (Pipeline.start (PhaseState.default .closed)
        (PhaseState.default .closed) Sample.onePerSecondValidator)
      (Sample.cancelPosted ++
        [.cancel, .matcherTake, .submit])).executed.Sublist
      ((replay PipelineCall.execute
        (Pipeline.start (PhaseState.default .closed)
          (PhaseState.default .closed) Sample.onePerSecondValidator)
        (Sample.cancelPosted ++
          [.cancel, .matcherTake, .submit])).received.map
        OrderMessage.action) := by
    decide +kernel
  exact overtaken served.inOrder

end InternTradingGame
