import InternTradingGame.Api.Submission
import InternTradingGame.Pipeline.Settling

/-!
# What a refusal of the validator thread says

The validator thread answers a new order with a failure only when it does not
forward it.  Such an order is not carried any more and has not been submitted,
so it never reaches the match queue and no trade names it.
-/

namespace InternTradingGame

open Effects Sequences

/-! ## Orders which are withheld -/

/-- The orders which have been put on the match queue. -/
def Pipeline.matched (state : Pipeline) : List Order :=
  state.submitted ++
    (state.matcher.submissions ++ state.matchQueue).map Prod.fst

/-- No thread holds the order, and it has not been submitted. -/
structure Withheld (orderId : String) (state : Pipeline) : Prop where
  uncarried : ∀ submission ∈ state.carried,
    submission.1.orderId ≠ orderId
  unsubmitted : ∀ order ∈ state.submitted, order.orderId ≠ orderId

section Withheld

variable {orderId : String} {state next : Pipeline}
  {call : PipelineCall}

/-- What has been put on the match queue stays there or is submitted. -/
theorem PipelineMove.matched (move : PipelineMove state call next) :
    state.matched ⊆ next.matched := by
  intro order member
  have submitted := move.submitted
  rw [Pipeline.matched, submitted]
  cases move with
  | forwards validator =>
      simp only [Pipeline.matched, List.map_append, List.mem_append]
        at member ⊢
      tauto
  | matcherTakes matcher queued =>
      simpa [Pipeline.matched, matcher, queued, PipelineCall.submitting,
        MatcherState.submissions] using member
  | submits matcher _ =>
      simpa [Pipeline.matched, matcher, PipelineCall.submitting,
        MatcherState.submissions, or_assoc] using member
  | submitFails matcher _ =>
      simpa [Pipeline.matched, matcher, PipelineCall.submitting,
        MatcherState.submissions, or_assoc] using member
  | publishes matcher =>
      simpa [Pipeline.matched, matcher, PipelineCall.submitting,
        MatcherState.submissions] using member
  | checkFails matcher _ =>
      simpa [Pipeline.matched, matcher, PipelineCall.submitting,
        MatcherState.submissions] using member
  | stays _ _ _ =>
      simp only [Pipeline.matched, List.mem_append] at member ⊢
      tauto
  | _ =>
      simpa [Pipeline.matched, PipelineCall.submitting,
        Pipeline.listInstrument, Pipeline.post] using member

theorem Withheld.unmatched (withheld : Withheld orderId state) :
    ∀ order ∈ state.matched, order.orderId ≠ orderId := by
  intro order member
  rcases List.mem_append.mp member with submitted | queued
  · exact withheld.unsubmitted order submitted
  · rcases List.mem_map.mp queued with ⟨submission, held, rfl⟩
    exact withheld.uncarried submission (List.mem_append_left _ held)

/-- No trade names an order which has not been submitted. -/
theorem Withheld.untraded (withheld : Withheld orderId state)
    (sound : PipelineSound state) :
    ∀ trade ∈ state.venue.market.heap.trades, ¬ trade.Names orderId := by
  intro trade member names
  rcases sound.venue.market.between trade member with
    ⟨buy, buyTaken, sell, sellTaken, between⟩
  rcases (between.names_iff orderId).mp names with isBuy | isSell
  · exact withheld.unsubmitted buy (sound.taken buy buyTaken) isBuy
  · exact withheld.unsubmitted sell (sound.taken sell sellTaken) isSell

/-- An order which has not been received is withheld. -/
theorem PipelineSound.withheld (sound : PipelineSound state)
    (unknown : orderId ∉ state.receivedOrders.map Order.orderId) :
    Withheld orderId state where
  uncarried := by
    rintro submission member rfl
    apply unknown
    exact List.mem_map_of_mem (sound.inOrder.subset
      (List.mem_append_right _ (List.mem_map_of_mem member)))
  unsubmitted := by
    rintro order member rfl
    apply unknown
    exact List.mem_map_of_mem
      (sound.inOrder.subset (List.mem_append_left _ member))

/-- The order has been received and turned away. -/
structure Refused (orderId : String) (state : Pipeline) : Prop where
  received : orderId ∈ state.receivedOrders.map Order.orderId
  withheld : Withheld orderId state

/-- What has been turned away does not come back. -/
theorem Refused.step (refused : Refused orderId state)
    (allowed : call.Allowed state) (move : PipelineMove state call next) :
    Refused orderId next where
  received := by
    show orderId ∈ (next.posted.map Prod.fst).map Order.orderId
    rw [move.posted, List.map_append, List.map_append]
    exact List.mem_append_left _ refused.received
  withheld :=
    { uncarried := by
        intro submission member
        have carried :=
          move.carried.subset (List.mem_append_right _ member)
        rcases List.mem_append.mp carried with old | new
        · exact refused.withheld.uncarried submission old
        · rintro rfl
          cases call with
          | post message =>
              exact (allowed.2 submission new).1 refused.received
          | _ => cases new
      unsubmitted := by
        intro order member
        rw [move.submitted] at member
        rcases List.mem_append.mp member with old | new
        · exact refused.withheld.unsubmitted order old
        · rcases List.mem_map.mp new with ⟨submission, submitting, rfl⟩
          have carried := move.carried.subset
            (List.mem_append_left _ submitting)
          rcases List.mem_append.mp carried with held | posted
          · exact refused.withheld.uncarried submission held
          · cases call with
            | submit => cases posted
            | _ => cases submitting }

end Withheld

/-! ## The responses of the validator thread -/

/-- The request the thread is about. -/
def ValidatorState.requestIds : ValidatorState → List String
  | idle => []
  | received message => [message.requestId]
  | forwarding _ _ requestId => [requestId]
  | counting _ _ requestId => [requestId]
  | replying requestId _ => [requestId]

/-- The orders of a request have been turned away. -/
def Pipeline.Refuses (state : Pipeline) (requestId : String) : Prop :=
  ∀ message ∈ state.received, message.requestId = requestId →
    ∀ submission ∈ message.submissions,
      Refused submission.1.orderId state

/-- A failure is only answered where an order has been turned away. -/
structure RepliesTruly (state : Pipeline) : Prop where
  asked : ∀ requestId ∈ state.validator.requestIds,
    requestId ∈ state.received.map OrderMessage.requestId
  refuses : ∀ requestId response,
    state.validator = .replying requestId response →
      response.success = false → state.Refuses requestId

theorem afterValidation_requestIds (order : Order) (team : TeamInfo)
    (requestId : String) (result : OrderResult) :
    (afterValidation order team requestId result).requestIds =
      [requestId] := by
  rcases afterValidation_cases order team requestId result with
    ⟨_, forwards⟩ | ⟨_, response, replies, _⟩
  · rw [forwards]
    rfl
  · rw [replies]
    rfl

theorem afterCancellation_requestIds (orderId requestId : String)
    (answer : Except PyError (Bool × Option String)) :
    (afterCancellation orderId requestId answer).requestIds =
      [requestId] := by
  rcases afterCancellation_replies orderId requestId answer with
    ⟨response, replies, _⟩
  rw [replies]
  rfl

/-- What the thread answers to a cancel. -/
theorem afterCancellation_replying {orderId requestId answered : String}
    {answer : Except PyError (Bool × Option String)}
    {response : ApiResponse}
    (replying :
      afterCancellation orderId requestId answer =
        .replying answered response) :
    answered = requestId ∧ response.requestId = requestId ∧
      (response.success = true →
        response.orderId = some orderId ∧
          ∃ reason, answer = .ok (true, reason)) := by
  rcases afterCancellation_replies orderId requestId answer with
    ⟨given, replies, facts⟩
  cases replies.symm.trans replying
  exact ⟨rfl, facts⟩

/-- A new order is only answered at once when it has failed. -/
theorem afterValidation_failed {order : Order} {team : TeamInfo}
    {requestId answered : String} {result : OrderResult}
    {response : ApiResponse}
    (replying :
      afterValidation order team requestId result =
        .replying answered response) :
    answered = requestId ∧ response.requestId = requestId ∧
      response.success = false := by
  rcases afterValidation_cases order team requestId result with
    ⟨_, forwards⟩ | ⟨_, given, replies, facts⟩
  · cases forwards.symm.trans replying
  · cases replies.symm.trans replying
    exact ⟨rfl, facts⟩

/-- The thread replies only to an order which it does not forward. -/
theorem afterValidation_replying {order : Order} {team : TeamInfo}
    {requestId answered : String} {result : OrderResult}
    {response : ApiResponse}
    (replying :
      afterValidation order team requestId result =
        .replying answered response) :
    (afterValidation order team requestId result).submissions = [] := by
  rw [replying]
  rfl

section Replies

variable {state next : Pipeline} {call : PipelineCall}

/-- A request which has been received has one message. -/
theorem PipelineSound.message_unique (sound : PipelineSound state)
    {message other : OrderMessage} (received : message ∈ state.received)
    (otherReceived : other ∈ state.received)
    (equal : message.requestId = other.requestId) : message = other :=
  List.inj_on_of_nodup_map sound.requests received otherReceived equal

theorem PipelineMove.received_subset
    (move : PipelineMove state call next) :
    state.received ⊆ next.received := by
  rw [move.received]
  exact List.subset_append_left _ _

/-- A request is posted once, so one which is known has its message. -/
theorem PipelineMove.received_of_known
    (move : PipelineMove state call next) (allowed : call.Allowed state)
    {message : OrderMessage}
    (known :
      message.requestId ∈ state.received.map OrderMessage.requestId)
    (received : message ∈ next.received) : message ∈ state.received := by
  rw [move.received] at received
  rcases List.mem_append.mp received with old | new
  · exact old
  · cases call with
    | post posted =>
        rcases List.mem_singleton.mp new with rfl
        exact absurd known allowed.1
    | _ => cases new

/-- What has been turned away stays away. -/
theorem Pipeline.Refuses.step {requestId : String}
    (refuses : state.Refuses requestId)
    (known : requestId ∈ state.received.map OrderMessage.requestId)
    (allowed : call.Allowed state) (move : PipelineMove state call next) :
    next.Refuses requestId := by
  intro message member same submission submitted
  have old := move.received_of_known allowed (same ▸ known) member
  exact (refuses message old same submission submitted).step allowed move

/-- The message which the thread has taken has been received. -/
theorem PipelineSound.mem_received (sound : PipelineSound state)
    {message : OrderMessage}
    (validator : state.validator = .received message) :
    message ∈ state.received := by
  rcases sound.queued with ⟨decided, received⟩
  rw [received, validator]
  exact List.mem_append_left _
    (List.mem_append_right _ (List.mem_singleton_self _))

/-- An order which is not forwarded has been turned away. -/
theorem PipelineSound.refused (sound : PipelineSound state)
    {order : Order} {team : TeamInfo} {requestId : String}
    (validator :
      state.validator = .received (.newOrder order team requestId))
    {place : ValidatorState} (dropped : place.submissions = []) :
    Refused order.orderId { state with validator := place } := by
  let ahead := state.submitted ++
    (state.matcher.submissions ++ state.matchQueue).map Prod.fst
  let behind :=
    (state.orderQueue.flatMap OrderMessage.submissions).map Prod.fst
  have apart : ∀ other ∈ ahead ++ behind,
      other.orderId ≠ order.orderId := by
    have whole : state.submitted ++ state.carried.map Prod.fst =
        ahead ++ order :: behind := by
      simp [ahead, behind, Pipeline.carried, validator,
        ValidatorState.submissions, OrderMessage.submissions]
    have ids := (sound.inOrder.map Order.orderId).nodup sound.distinct
    rw [whole, List.map_append, List.map_cons, List.nodup_middle,
      ← List.map_append, List.nodup_cons] at ids
    intro other member equal
    exact ids.1 (equal ▸ List.mem_map_of_mem member)
  constructor
  · have posted := sound.carried (order, team) (by
      rw [Pipeline.carried, validator]
      exact List.mem_append_right _
        (List.mem_append_left _ List.mem_cons_self))
    exact List.mem_map_of_mem (List.mem_map_of_mem posted)
  · constructor
    · intro submission member
      apply apart
      simp only [Pipeline.carried, dropped, List.nil_append] at member
      rcases List.mem_append.mp member with held | queued
      · exact List.mem_append_left _
          (List.mem_append_right _ (List.mem_map_of_mem held))
      · exact List.mem_append_right _ (List.mem_map_of_mem queued)
    · intro other member
      exact apart other
        (List.mem_append_left _ (List.mem_append_left _ member))

theorem RepliesTruly.start (cached baseline : PhaseState)
    (validator : ConstraintBasedOrderValidator) :
    RepliesTruly (Pipeline.start cached baseline validator) where
  asked := by
    intro requestId member
    cases member
  refuses := by
    intro requestId response replying
    cases replying

/-- Every step keeps the replies true. -/
theorem RepliesTruly.step (truly : RepliesTruly state)
    (sound : PipelineSound state) (allowed : call.Allowed state)
    (move : PipelineMove state call next) : RepliesTruly next := by
  have same : next.validator = state.validator → RepliesTruly next := by
    intro validator
    constructor
    · intro requestId member
      rw [validator] at member
      exact List.map_subset _ move.received_subset
        (truly.asked requestId member)
    · intro requestId response replying failed
      rw [validator] at replying
      apply (truly.refuses requestId response replying failed).step ?_
        allowed move
      apply truly.asked
      rw [replying]
      exact List.mem_singleton_self _
  have silent : (∀ requestId response,
        next.validator ≠ .replying requestId response) →
      (∀ requestId ∈ next.validator.requestIds,
        requestId ∈ state.received.map OrderMessage.requestId) →
      RepliesTruly next := by
    intro silent asked
    constructor
    · intro requestId member
      exact List.map_subset _ move.received_subset (asked requestId member)
    · intro requestId response replying
      exact absurd replying (silent requestId response)
  cases move with
  | @takes message rest validator queued =>
      refine silent (fun _ _ equal => nomatch equal) ?_
      intro requestId member
      rcases List.mem_singleton.mp member with rfl
      rcases sound.queued with ⟨decided, received⟩
      apply List.mem_map_of_mem
      rw [received, queued]
      exact List.mem_append_right _ List.mem_cons_self
  | @validates order team requestId currentTime validator =>
      have taken := sound.mem_received validator
      have known : requestId ∈
          state.received.map OrderMessage.requestId :=
        List.mem_map_of_mem taken
      constructor
      · intro asked member
        rw [afterValidation_requestIds] at member
        rw [List.mem_singleton.mp member]
        exact known
      · intro answered response replying _ message member equal submission
          submitted
        have same : answered = requestId :=
          (afterValidation_failed replying).1
        rcases sound.message_unique member taken
          (equal.trans same) with rfl
        rcases List.mem_singleton.mp submitted with rfl
        exact sound.refused validator (afterValidation_replying replying)
  | @forwards order team requestId validator =>
      refine silent (fun _ _ equal => nomatch equal) ?_
      intro asked member
      exact truly.asked asked (validator ▸ member)
  | @counts order team requestId currentTime validator =>
      constructor
      · intro asked member
        exact truly.asked asked (validator ▸ member)
      · intro answered response replying failed
        cases replying
        cases failed
  | @cancels orderId requestId team answer validator _ =>
      have taken := sound.mem_received validator
      constructor
      · intro asked member
        rw [afterCancellation_requestIds] at member
        rw [List.mem_singleton.mp member]
        exact List.mem_map_of_mem taken
      · intro answered response replying _ message member equal submission
          submitted
        have same : answered = requestId :=
          (afterCancellation_replying replying).1
        rcases sound.message_unique member taken
          (equal.trans same) with rfl
        cases submitted
  | replies validator =>
      refine silent (fun _ _ equal => nomatch equal) ?_
      intro requestId member
      cases member
  | _ => exact same rfl

end Replies

end InternTradingGame
