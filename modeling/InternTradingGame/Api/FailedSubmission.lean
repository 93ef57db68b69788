import InternTradingGame.Api.Soundness
import InternTradingGame.Pipeline.PositionLimits

/-!
# The fate of a submission which failed

A client which is told that its order has failed learns nothing about the
order when the response only says that waiting for it has failed.  Every
other failure is final: the order is never put on the match queue, and no
trade names it.
-/

namespace InternTradingGame

open Effects Coordinator

/-! ## Failures of the wait -/

/-- The response only says that waiting for the request has failed. -/
def ApiResponse.SaysWaitFailed (response : ApiResponse) : Prop :=
  response.LeavesOpen ∨
    (response.requestId ≠ "" ∧
      ∃ error ∈ response.error,
        error.code = "INTERNAL_ERROR" ∧
          "Failed to submit order: ".toList <+: error.message.toList)

instance (response : ApiResponse) : Decidable response.SaysWaitFailed :=
  inferInstanceAs (Decidable (_ ∨ (_ ∧ ∃ error ∈ _, _ ∧ _)))

theorem formatRequestId_ne_empty (idPrefix : String)
    (timestamp counter : ℕ) :
    formatRequestId idPrefix timestamp counter ≠ "" := by
  intro empty
  have lists := congrArg String.toList empty
  simp [formatRequestId] at lists

/-- What the endpoint of a new order returns for an exception. -/
theorem submissionFailed_saysWaitFailed {requestId : String}
    (named : requestId ≠ "") (exception : PyError) :
    (ApiResponse.submissionFailed requestId exception).SaysWaitFailed := by
  right
  refine ⟨named, _, rfl, rfl, ?_⟩
  show _ <+: ("Failed to submit order: " ++ exception.describe).toList
  rw [String.toList_append]
  exact List.prefix_append _ _

/-! ## Orders which have failed for good -/

section Fate

variable {config : CoordinationConfig} {state : Application}
  {caller : ℕ} {order : Order} {message : Option OrderMessage}
  {response : ApiResponse}

/-- An order which has failed for good is withheld. -/
theorem ApplicationSound.withheld (sound : ApplicationSound config state)
    (found : state.apiCalls.get? caller =
      some { order := some order, stage := .answered message response })
    (failed : response.success = false)
    (final : ¬ response.SaysWaitFailed) :
    Withheld order.orderId state.pipeline := by
  cases message with
  | none =>
      apply sound.pipeline.withheld
      intro received
      rcases sound.posted_of_received found rfl received with ⟨_, posted⟩
      cases posted
  | some message =>
      have asks := sound.apart.asks caller _ message found rfl
      cases message with
      | cancelOrder orderId team requestId => cases asks.orders
      | newOrder posted team requestId =>
          rcases Option.some.inj (asks.order_eq List.mem_cons_self) with rfl
          rcases sound.answers caller _ _ response found with
            (leftOpen | ⟨notification, member, same, answer⟩) |
              ⟨exception, own⟩
          · exact absurd (Or.inl leftOpen.leavesOpen) final
          · rw [← answer] at failed
            have received := sound.posts.posted caller _ _ found rfl
            exact (sound.refuses notification member failed _ received
              same.symm _ List.mem_cons_self).withheld
          · rcases sound.apart.numbered caller _ _ found rfl with
              ⟨timestamp, used, _, named⟩
            exfalso
            apply final
            rw [own]
            apply submissionFailed_saysWaitFailed
            rw [show requestId = _ from named]
            exact formatRequestId_ne_empty _ _ _

/-- The order is not on the match queue, and no trade names it. -/
def Application.NeverTrades (orderId : String) (state : Application) :
    Prop :=
  (∀ submission ∈ state.pipeline.matchQueue,
      submission.1.orderId ≠ orderId) ∧
    ∀ trade ∈ state.pipeline.venue.market.heap.trades,
      ¬ trade.Names orderId

end Fate

/-! ## Runs -/

section Runs

variable {config : CoordinationConfig} {state next : Application}
  {steps : List PipelineCall}
  {calls : List ApplicationCall}

/-- A call which has been answered stays as it is. -/
theorem ApplicationMove.answered (move : ApplicationMove state steps next)
    {caller : ℕ} {order : Option Order} {message : Option OrderMessage}
    {response : ApiResponse}
    (found : state.apiCalls.get? caller =
      some { order, stage := .answered message response }) :
    next.apiCalls.get? caller =
      some { order, stage := .answered message response } := by
  have kept : ∀ other call,
      state.apiCalls.get? other ≠
          some { order, stage := .answered message response } →
        (state.apiCalls.set other call).get? caller =
          some { order, stage := .answered message response } := by
    intro other call elsewhere
    rw [OrderedDict.get?_set, if_neg]
    · exact found
    · rintro rfl
      exact elsewhere found
  cases move with
  | fails other order response new fresh =>
      apply kept
      rw [new]
      exact nofun
  | registers other order message teamId timeoutSeconds timestamp now
      registeredAt new fresh accepts numbered asks =>
      apply kept
      rw [new]
      exact nofun
  | enqueues other order message registered =>
      apply kept
      rw [registered]
      intro equal
      cases equal
  | responds other order message requestId outcome waiting waiter =>
      apply kept
      rw [waiting]
      intro equal
      cases equal
  | _ => exact found

/-- What is on the match queue stays there or is submitted. -/
theorem ApplicationMove.matched (move : ApplicationMove state steps next) :
    state.pipeline.matched ⊆ next.pipeline.matched := by
  cases move with
  | enqueues _ _ message _ => exact (PipelineMove.posts message).matched
  | replies _ _ _ _ _ =>
      exact (PipelineCall.execute_moves .reply state.pipeline).matched
  | threads call _ => exact (call.execute_moves state.pipeline).matched
  | _ => exact List.Subset.refl _

/-- Trades stay on record. -/
theorem ApplicationSound.trades_kept
    (sound : ApplicationSound config state)
    (move : ApplicationMove state steps next) :
    state.pipeline.venue.market.heap.trades <+:
      next.pipeline.venue.market.heap.trades := by
  cases move with
  | threads call _ =>
      exact sound.pipeline.trades_prefix
        (call.execute_moves state.pipeline)
  | replies _ _ _ _ _ =>
      exact sound.pipeline.trades_prefix
        (PipelineCall.execute_moves .reply state.pipeline)
  | _ => exact List.prefix_refl _

/-- What a run leaves on record. -/
theorem ApplicationSound.recorded (sound : ApplicationSound config state)
    (run : Run ApplicationStep state calls next) :
    state.pipeline.matched ⊆ next.pipeline.matched ∧
      state.pipeline.venue.market.heap.trades <+:
        next.pipeline.venue.market.heap.trades := by
  have all := run.invariant
    (fun reached => ApplicationSound config reached ∧
      state.pipeline.matched ⊆ reached.pipeline.matched ∧
        state.pipeline.venue.market.heap.trades <+:
          reached.pipeline.venue.market.heap.trades)
    ⟨sound, List.Subset.refl _, List.prefix_refl _⟩
    (by
      rintro before call _ ⟨reached, matched, trades⟩ ⟨allowed, rfl⟩
      have move := ApplicationCall.execute_moves allowed
      exact ⟨reached.move move, List.Subset.trans matched move.matched,
        trades.trans (reached.trades_kept move)⟩)
  exact all.2

theorem answered_of_run (run : Run ApplicationStep state calls next)
    {caller : ℕ} {call : ApiCall}
    {message : Option OrderMessage} {response : ApiResponse}
    (stage : call.stage = .answered message response)
    (found : state.apiCalls.get? caller = some call) :
    next.apiCalls.get? caller = some call := by
  rcases call with ⟨order, place⟩
  rcases stage with rfl
  apply run.invariant (fun reached => reached.apiCalls.get? caller =
    some { order, stage := .answered message response }) found
  rintro before call _ answered ⟨allowed, rfl⟩
  exact (ApplicationCall.execute_moves allowed).answered answered

end Runs

/--
A client is told that its order has failed, and not only that waiting for it
has failed: in no state of the run, before or after, is the order on the
match queue or in a trade.
-/
theorem failedSubmission_neverTrades {config : CoordinationConfig}
    {cached baseline : PhaseState}
    {validator : ConstraintBasedOrderValidator}
    {before after : List ApplicationCall} {told finish : Application}
    {caller : ℕ} {order : Order} {message : Option OrderMessage}
    {response : ApiResponse}
    (reaches :
      Run ApplicationStep
        (Application.start config cached baseline validator) before told)
    (continues : Run ApplicationStep told after finish)
    (answered : told.apiCalls.get? caller =
      some { order := some order, stage := .answered message response })
    (failed : response.success = false)
    (final : ¬ response.SaysWaitFailed) :
    Throughout ApplicationStep
      (Application.start config cached baseline validator)
      (before ++ after) (Application.NeverTrades order.orderId) := by
  have run := reaches.append continues
  have sound := ApplicationSound.of_run
    (ApplicationSound.start config cached baseline validator) run
  have still := answered_of_run continues rfl answered
  have withheld := sound.withheld still failed final
  intro earlier later state split reached
  rw [split] at run
  rcases run.split with ⟨middle, first, second⟩
  rcases first.eq_replay.trans reached.eq_replay.symm with rfl
  have soundHere := ApplicationSound.of_run
    (ApplicationSound.start config cached baseline validator) first
  rcases soundHere.recorded second with ⟨matched, trades⟩
  constructor
  · intro submission queued
    apply withheld.unmatched
    apply matched
    exact List.mem_append_right _
      (List.mem_map_of_mem (List.mem_append_right _ queued))
  · intro trade member
    exact withheld.untraded sound.pipeline trade (trades.subset member)

namespace Sample

/-- The request to sell ten contracts at 5.00. -/
def sellRequest : OrderRequest where
  instrumentId := "CALL"
  orderType := "limit"
  side := "sell"
  quantity := 10
  price := some 5
  clientOrderId := none

/-- The request to buy four contracts at no more than 6.00. -/
def buyRequest : OrderRequest where
  instrumentId := "CALL"
  orderType := "limit"
  side := "buy"
  quantity := 4
  price := some 6
  clientOrderId := none

/-- An API call sends an order and waits. -/
def sending (caller : ℕ) (request : OrderRequest) (team : TeamInfo)
    (orderId : String) : List ApplicationCall :=
  [ .submitOrder caller request team orderId 0 0 0, .enqueue caller,
    .awaitCompletion caller 0 ]

/-- The API call is told the response. -/
def telling (caller : ℕ) : List ApplicationCall :=
  [ .reply 0, .coordinator (.wake caller),
    .coordinator (.takeResult caller), .respond caller ]

/-- The order is accepted and submitted. -/
def processing : List ApplicationCall :=
  [ .pipeline .validatorTake, .pipeline (.validate 0),
    .pipeline .forward, .pipeline (.count 0), .reply 0,
    .pipeline .matcherTake, .pipeline .submit, .pipeline .publish ]

/-- A sale is offered in the continuous market. -/
def offering : List ApplicationCall :=
  [ .pipeline (.checkPhases (PhaseState.default .continuous) fun _ => 0),
    .pipeline (.listInstrument { symbol := "CALL" }) ] ++
    sending 0 sellRequest unlimitedTeam "SELL" ++ processing

/-- A team which may hold four contracts asks for eleven. -/
def overLimit : List ApplicationCall :=
  sending 1 { buyRequest with quantity := 11 } buyingTeam "BUY" ++
    [ .pipeline .validatorTake, .pipeline (.validate 0) ] ++ telling 1

/-- The wait for an order runs out before the validator thread takes it. -/
def timingOut : List ApplicationCall :=
  sending 1 buyRequest buyingTeam "BUY" ++
    [ .coordinator (.expire 1), .coordinator (.composeTimeout 1 5000),
      .coordinator (.giveUp 1), .respond 1 ]

/-- An order for more than the team may hold. -/
def buyTooMany : Order :=
  { buyFour with
    quantity := 11
    quantity_positive := by decide +kernel }

/-- An application whose market makers have a position limit of four. -/
def limitStart : Application :=
  Application.start {} (PhaseState.default .closed)
    (PhaseState.default .closed) fourValidator

theorem overLimit_rejected :
    (replay ApplicationCall.execute limitStart overLimit).apiCalls.get? 1 =
      some
        { order := some buyTooMany
          stage :=
            .answered
              (some (.newOrder buyTooMany buyingTeam "req_0_000001"))
              (.failed "req_0_000001" "MM_POS_LIMIT"
                "Position limit exceeded: Position 11 exceeds 4") } := by
  decide +kernel

end Sample

/-- The order exceeds a limit, so it is rejected. -/
theorem failedSubmission_neverTrades_limit :
    Throughout ApplicationStep Sample.limitStart
      (Sample.overLimit ++ Sample.offering)
      (Application.NeverTrades "BUY") :=
  failedSubmission_neverTrades (run_replay (by decide +kernel))
    (run_replay (by decide +kernel)) Sample.overLimit_rejected rfl
    (by decide +kernel)

/-- The wait runs out, and then the order is accepted and traded. -/
theorem timedOutSubmission_trades :
    ¬ ∀ (config : CoordinationConfig) (cached baseline : PhaseState)
        (validator : ConstraintBasedOrderValidator)
        (before after : List ApplicationCall) (told finish : Application)
        (caller : ℕ) (order : Order) (message : Option OrderMessage)
        (response : ApiResponse),
      Run ApplicationStep
          (Application.start config cached baseline validator) before told →
        Run ApplicationStep told after finish →
          told.apiCalls.get? caller =
              some
                { order := some order
                  stage := .answered message response } →
            response.success = false →
              Throughout ApplicationStep
                (Application.start config cached baseline validator)
                (before ++ after)
                (Application.NeverTrades order.orderId) := by
  intro never
  let told := replay ApplicationCall.execute Sample.limitStart
    (Sample.offering ++ Sample.timingOut)
  have expired : told.apiCalls.get? 1 =
      some
        { order := some Sample.buyFour
          stage :=
            .answered
              (some (.newOrder Sample.buyFour Sample.buyingTeam
                "req_0_000002"))
              { success := false
                requestId := "req_0_000002"
                orderId := none
                error :=
                  some
                    { code := "PROCESSING_TIMEOUT"
                      message := "Order processing exceeded time limit"
                      details :=
                        some
                          [("timeout_ms", .number 5000),
                            ("elapsed_ms", .number 5000),
                            ("stage", .text "registration")] } } } := by
    decide +kernel
  have reaches : Run ApplicationStep Sample.limitStart
      (Sample.offering ++ Sample.timingOut) told :=
    run_replay (by decide +kernel)
  have continues : Run ApplicationStep told Sample.processing
      (replay ApplicationCall.execute told Sample.processing) :=
    run_replay (by decide +kernel)
  have untraded := never _ _ _ _ _ _ _ _ _ _ _ _ reaches continues expired
    rfl _ [] _ (List.append_nil _).symm (reaches.append continues)
  have traded : ∃ trade ∈ (replay ApplicationCall.execute told
      Sample.processing).pipeline.venue.market.heap.trades,
        trade.Names "BUY" := by
    decide +kernel
  rcases traded with ⟨trade, member, names⟩
  exact untraded.2 trade member names

end InternTradingGame
