import InternTradingGame.Api.Submission

/-!
# The API calls and their requests

Every API call has its own request and its own order.  Its message is on the
order queue, or has been, exactly when the call waits or has been answered
for it.
-/

namespace InternTradingGame

open Effects Coordinator

/-! ## What belongs to a call -/

/-- The message which has been put on the order queue. -/
def ApiStage.posted : ApiStage → Option OrderMessage
  | registered _ => none
  | waiting message => some message
  | answered message _ => message

theorem ApiStage.message_of_posted {stage : ApiStage}
    {message : OrderMessage} (posted : stage.posted = some message) :
    stage.message = some message := by
  cases stage with
  | registered _ => cases posted
  | waiting _ => exact posted
  | answered _ _ => exact posted

/-- The message asks for the order of the call, whole and by its team. -/
structure ApiCall.Asks (call : ApiCall) (message : OrderMessage) :
    Prop where
  orders : message.submissions.map Prod.fst = call.order.toList
  own : ∀ submission ∈ message.submissions,
    submission.2.teamId = submission.1.traderId ∧
      Whole submission.1.quantity

theorem ApiCall.Asks.order_eq {call : ApiCall} {message : OrderMessage}
    (asks : call.Asks message) {submission : Order × TeamInfo}
    (member : submission ∈ message.submissions) :
    call.order = some submission.1 := by
  have listed : submission.1 ∈ call.order.toList := by
    rw [← asks.orders]
    exact List.mem_map_of_mem member
  exact Option.mem_toList.mp listed

/-- The requests and the orders of the calls are told apart by their ids. -/
structure CallsApart (config : CoordinationConfig) (counter : ℕ)
    (calls : OrderedDict ℕ ApiCall) : Prop where
  asks : ∀ caller call message, calls.get? caller = some call →
    call.stage.message = some message → call.Asks message
  numbered : ∀ caller call message, calls.get? caller = some call →
    call.stage.message = some message →
      ∃ timestamp used, used ≤ counter ∧
        message.requestId =
          formatRequestId config.requestIdPrefix timestamp used
  requests : ∀ caller other call otherCall message otherMessage,
    calls.get? caller = some call → calls.get? other = some otherCall →
      call.stage.message = some message →
        otherCall.stage.message = some otherMessage →
          message.requestId = otherMessage.requestId → caller = other
  orders : ∀ caller other call otherCall order otherOrder,
    calls.get? caller = some call → calls.get? other = some otherCall →
      call.order = some order → otherCall.order = some otherOrder →
        order.orderId = otherOrder.orderId → caller = other

section Apart

variable {config : CoordinationConfig} {counter : ℕ}
  {calls : OrderedDict ℕ ApiCall} {caller : ℕ} {call next : ApiCall}

theorem CallsApart.empty (config : CoordinationConfig) :
    CallsApart config counter ∅ where
  asks := by
    intro caller call message found
    cases found
  numbered := by
    intro caller call message found
    cases found
  requests := by
    intro caller other call otherCall message otherMessage found
    cases found
  orders := by
    intro caller other call otherCall order otherOrder found
    cases found

theorem CallsApart.mono (apart : CallsApart config counter calls)
    {later : ℕ} (le : counter ≤ later) :
    CallsApart config later calls where
  asks := apart.asks
  numbered := by
    intro caller call message found asked
    rcases apart.numbered caller call message found asked with
      ⟨timestamp, used, below, same⟩
    exact ⟨timestamp, used, below.trans le, same⟩
  requests := apart.requests
  orders := apart.orders

/-- What a call has asked for before it moves on. -/
theorem get?_advance (found : calls.get? caller = some call)
    (order : next.order = call.order)
    (message : next.stage.message = call.stage.message) {other : ℕ}
    {otherCall : ApiCall}
    (moved : (calls.set caller next).get? other = some otherCall) :
    ∃ before, calls.get? other = some before ∧
      otherCall.order = before.order ∧
        otherCall.stage.message = before.stage.message := by
  rw [OrderedDict.get?_set] at moved
  split_ifs at moved with same
  · rcases Option.some.inj moved with rfl
    exact ⟨call, same ▸ found, order, message⟩
  · exact ⟨otherCall, moved, rfl, rfl⟩

/-- A call moves on with its request and its order. -/
theorem CallsApart.advance (apart : CallsApart config counter calls)
    (found : calls.get? caller = some call)
    (order : next.order = call.order)
    (message : next.stage.message = call.stage.message) :
    CallsApart config counter (calls.set caller next) where
  asks := by
    intro other otherCall asked moved stage
    rcases get?_advance found order message moved with
      ⟨before, stored, sameOrder, sameMessage⟩
    have asks := apart.asks other before asked stored
      (sameMessage ▸ stage)
    exact ⟨sameOrder ▸ asks.orders, asks.own⟩
  numbered := by
    intro other otherCall asked moved stage
    rcases get?_advance found order message moved with
      ⟨before, stored, _, sameMessage⟩
    exact apart.numbered other before asked stored (sameMessage ▸ stage)
  requests := by
    intro first second firstCall secondCall firstMessage secondMessage
      firstMoved secondMoved firstStage secondStage
    rcases get?_advance found order message firstMoved with
      ⟨firstBefore, firstStored, _, firstSame⟩
    rcases get?_advance found order message secondMoved with
      ⟨secondBefore, secondStored, _, secondSame⟩
    exact apart.requests first second firstBefore secondBefore
      firstMessage secondMessage firstStored secondStored
      (firstSame ▸ firstStage) (secondSame ▸ secondStage)
  orders := by
    intro first second firstCall secondCall firstOrder secondOrder
      firstMoved secondMoved firstMade secondMade
    rcases get?_advance found order message firstMoved with
      ⟨firstBefore, firstStored, firstSame, _⟩
    rcases get?_advance found order message secondMoved with
      ⟨secondBefore, secondStored, secondSame, _⟩
    exact apart.orders first second firstBefore secondBefore firstOrder
      secondOrder firstStored secondStored (firstSame ▸ firstMade)
      (secondSame ▸ secondMade)

/-- The orders of the other calls have other ids. -/
def FreshOrder (calls : OrderedDict ℕ ApiCall) (next : ApiCall) : Prop :=
  ∀ order ∈ next.order, ∀ other otherCall otherOrder,
    calls.get? other = some otherCall →
      otherCall.order = some otherOrder →
        otherOrder.orderId ≠ order.orderId

/-- A new call comes with a new order and a new request, if with any. -/
theorem CallsApart.add (apart : CallsApart config counter calls)
    {later : ℕ} (le : counter ≤ later) (fresh : FreshOrder calls next)
    (asks : ∀ message ∈ next.stage.message, next.Asks message)
    (numbered : ∀ message ∈ next.stage.message, ∃ timestamp used,
      counter < used ∧ used ≤ later ∧
        message.requestId =
          formatRequestId config.requestIdPrefix timestamp used) :
    CallsApart config later (calls.set caller next) where
  asks := by
    intro other otherCall message moved stage
    rw [OrderedDict.get?_set] at moved
    split_ifs at moved
    · rcases Option.some.inj moved with rfl
      exact asks message stage
    · exact apart.asks other otherCall message moved stage
  numbered := by
    intro other otherCall message moved stage
    rw [OrderedDict.get?_set] at moved
    split_ifs at moved
    · rcases Option.some.inj moved with rfl
      rcases numbered message stage with ⟨timestamp, used, _, below, same⟩
      exact ⟨timestamp, used, below, same⟩
    · exact (apart.mono le).numbered other otherCall message moved stage
  requests := by
    have unused : ∀ other otherCall message otherMessage,
        message ∈ next.stage.message →
          calls.get? other = some otherCall →
            otherCall.stage.message = some otherMessage →
              message.requestId ≠ otherMessage.requestId := by
      intro other otherCall message otherMessage asked stored stage equal
      rcases numbered message asked with ⟨timestamp, used, above, _, same⟩
      rcases apart.numbered other otherCall otherMessage stored stage with
        ⟨otherTime, earlier, below, otherSame⟩
      have counters : used = earlier :=
        formatRequestId_counter (same.symm.trans (equal.trans otherSame))
      exact absurd above (counters ▸ Nat.not_lt_of_le below)
    intro first second firstCall secondCall firstMessage secondMessage
      firstMoved secondMoved firstStage secondStage equal
    rw [OrderedDict.get?_set] at firstMoved secondMoved
    split_ifs at firstMoved secondMoved with firstSame secondSame
      secondSame
    · exact firstSame.trans secondSame.symm
    · rcases Option.some.inj firstMoved with rfl
      exact absurd equal (unused second secondCall firstMessage
        secondMessage firstStage secondMoved secondStage)
    · rcases Option.some.inj secondMoved with rfl
      exact absurd equal.symm (unused first firstCall secondMessage
        firstMessage secondStage firstMoved firstStage)
    · exact apart.requests first second firstCall secondCall firstMessage
        secondMessage firstMoved secondMoved firstStage secondStage equal
  orders := by
    intro first second firstCall secondCall firstOrder secondOrder
      firstMoved secondMoved firstMade secondMade equal
    rw [OrderedDict.get?_set] at firstMoved secondMoved
    split_ifs at firstMoved secondMoved with firstSame secondSame
      secondSame
    · exact firstSame.trans secondSame.symm
    · rcases Option.some.inj firstMoved with rfl
      exact absurd equal.symm (fresh firstOrder firstMade second
        secondCall secondOrder secondMoved secondMade)
    · rcases Option.some.inj secondMoved with rfl
      exact absurd equal (fresh secondOrder secondMade first firstCall
        firstOrder firstMoved firstMade)
    · exact apart.orders first second firstCall secondCall firstOrder
        secondOrder firstMoved secondMoved firstMade secondMade equal

end Apart

/-! ## The messages of the calls -/

/-- The messages on record are those of the calls which have posted one. -/
structure CallsPosted (received : List OrderMessage)
    (calls : OrderedDict ℕ ApiCall) : Prop where
  sent : ∀ message ∈ received, ∃ caller call,
    calls.get? caller = some call ∧ call.stage.posted = some message
  posted : ∀ caller call message, calls.get? caller = some call →
    call.stage.posted = some message → message ∈ received

section Posted

variable {received : List OrderMessage}
  {calls : OrderedDict ℕ ApiCall} {caller : ℕ} {call next : ApiCall}

theorem CallsPosted.empty : CallsPosted [] ∅ where
  sent := by
    intro message member
    cases member
  posted := by
    intro caller call message found
    cases found

/-- A call moves on and posts nothing. -/
theorem CallsPosted.advance (posts : CallsPosted received calls)
    (found : calls.get? caller = some call)
    (same : next.stage.posted = call.stage.posted) :
    CallsPosted received (calls.set caller next) where
  sent := by
    intro message member
    rcases posts.sent message member with ⟨other, otherCall, stored,
      posted⟩
    by_cases isCaller : other = caller
    · subst isCaller
      rcases Option.some.inj (found.symm.trans stored) with rfl
      exact ⟨other, next, OrderedDict.get?_set_self _ _ _,
        same.trans posted⟩
    · refine ⟨other, otherCall, ?_, posted⟩
      rw [OrderedDict.get?_set, if_neg isCaller]
      exact stored
  posted := by
    intro other otherCall message moved posted
    rw [OrderedDict.get?_set] at moved
    split_ifs at moved
    · rcases Option.some.inj moved with rfl
      exact posts.posted caller call message found (same ▸ posted)
    · exact posts.posted other otherCall message moved posted

/-- A new call has posted nothing. -/
theorem CallsPosted.add (posts : CallsPosted received calls)
    (new : calls.get? caller = none) (silent : next.stage.posted = none) :
    CallsPosted received (calls.set caller next) where
  sent := by
    intro message member
    rcases posts.sent message member with ⟨other, otherCall, stored,
      posted⟩
    refine ⟨other, otherCall, ?_, posted⟩
    rw [OrderedDict.get?_set, if_neg]
    · exact stored
    · rintro rfl
      cases new.symm.trans stored
  posted := by
    intro other otherCall message moved posted
    rw [OrderedDict.get?_set] at moved
    split_ifs at moved
    · rcases Option.some.inj moved with rfl
      cases silent.symm.trans posted
    · exact posts.posted other otherCall message moved posted

/-- A call posts its message. -/
theorem CallsPosted.post (posts : CallsPosted received calls)
    (found : calls.get? caller = some call)
    (silent : call.stage.posted = none) {message : OrderMessage}
    (posted : next.stage.posted = some message) :
    CallsPosted (received ++ [message]) (calls.set caller next) where
  sent := by
    intro other member
    rcases List.mem_append.mp member with old | new
    · rcases posts.sent other old with ⟨number, otherCall, stored,
        isPosted⟩
      refine ⟨number, otherCall, ?_, isPosted⟩
      rw [OrderedDict.get?_set, if_neg]
      · exact stored
      · rintro rfl
        rcases Option.some.inj (found.symm.trans stored) with rfl
        cases silent.symm.trans isPosted
    · rcases List.mem_singleton.mp new with rfl
      exact ⟨caller, next, OrderedDict.get?_set_self _ _ _, posted⟩
  posted := by
    intro number otherCall other moved isPosted
    rw [OrderedDict.get?_set] at moved
    split_ifs at moved
    · rcases Option.some.inj moved with rfl
      rcases Option.some.inj (posted.symm.trans isPosted) with rfl
      exact List.mem_concat_self
    · exact List.mem_append_left _
        (posts.posted number otherCall other moved isPosted)

end Posted

/-! ## The calls which wait -/

/-- Whoever waits waits for the request it has posted. -/
def WaitersPosted (waiters : OrderedDict ℕ Waiter)
    (calls : OrderedDict ℕ ApiCall) : Prop :=
  ∀ caller waiter, waiters.get? caller = some waiter →
    ∃ call message, calls.get? caller = some call ∧
      call.stage.posted = some message ∧
        waiter.requestId = message.requestId

/-- What a call has been answered is explained or its own failure. -/
def AnswersExplained (responses : ResponseSystem)
    (calls : OrderedDict ℕ ApiCall) : Prop :=
  ∀ caller order message response,
    calls.get? caller =
        some { order, stage := .answered (some message) response } →
      responses.Explains message.requestId response ∨
        ∃ exception, response = message.failed exception

section Waiters

variable {responses : ResponseSystem} {waiters : OrderedDict ℕ Waiter}
  {calls : OrderedDict ℕ ApiCall} {caller : ℕ} {call next : ApiCall}

/-- A call moves on with what it has posted. -/
theorem WaitersPosted.advance (waits : WaitersPosted waiters calls)
    (found : calls.get? caller = some call)
    (kept : ∀ message, call.stage.posted = some message →
      next.stage.posted = some message) :
    WaitersPosted waiters (calls.set caller next) := by
  intro other waiter stored
  rcases waits other waiter stored with
    ⟨otherCall, message, otherFound, posted, same⟩
  by_cases isCaller : other = caller
  · subst isCaller
    rcases Option.some.inj (found.symm.trans otherFound) with rfl
    exact ⟨next, message, OrderedDict.get?_set_self _ _ _,
      kept message posted, same⟩
  · refine ⟨otherCall, message, ?_, posted, same⟩
    rw [OrderedDict.get?_set, if_neg isCaller]
    exact otherFound

theorem WaitersPosted.add (waits : WaitersPosted waiters calls)
    (new : calls.get? caller = none) :
    WaitersPosted waiters (calls.set caller next) := by
  intro other waiter stored
  rcases waits other waiter stored with
    ⟨otherCall, message, otherFound, posted, same⟩
  refine ⟨otherCall, message, ?_, posted, same⟩
  rw [OrderedDict.get?_set, if_neg]
  · exact otherFound
  · rintro rfl
    cases new.symm.trans otherFound

/-- A step of the coordinator keeps what is waited for. -/
theorem WaitersPosted.execute
    (waits : WaitersPosted responses.waiters calls)
    (step : CoordinatorCall)
    (looked : ∀ caller requestId timeoutSeconds now,
      step = .lookup caller requestId timeoutSeconds now →
        ∃ call message, calls.get? caller = some call ∧
          call.stage.posted = some message ∧
            requestId = message.requestId) :
    WaitersPosted (step.execute responses).waiters calls := by
  intro caller waiter stored
  rcases waiter_execute step stored with
    ⟨before, found, same⟩ | ⟨timeoutSeconds, now, isLookup⟩
  · rcases waits caller before found with
      ⟨call, message, known, posted, own⟩
    exact ⟨call, message, known, posted, same.symm.trans own⟩
  · exact looked _ _ _ _ isLookup

theorem AnswersExplained.mono {later : ResponseSystem}
    (explained : AnswersExplained responses calls)
    (recorded : responses.notifications <+: later.notifications) :
    AnswersExplained later calls := by
  intro caller order message response found
  rcases explained caller order message response found with
    explains | failed
  · exact Or.inl (explains.mono recorded)
  · exact Or.inr failed

/-- A call moves to a stage which is explained. -/
theorem AnswersExplained.set (explained : AnswersExplained responses calls)
    (fine : ∀ message response,
      next.stage = .answered (some message) response →
        responses.Explains message.requestId response ∨
          ∃ exception, response = message.failed exception) :
    AnswersExplained responses (calls.set caller next) := by
  intro other order message response moved
  rw [OrderedDict.get?_set] at moved
  split_ifs at moved
  · rcases Option.some.inj moved with rfl
    exact fine message response rfl
  · exact explained other order message response moved

end Waiters

end InternTradingGame
