import InternTradingGame.Exchange.VenueSound

/-!
# Cancelling a live order

The documentation of the phases lets a trader cancel in the pre-open phase.
A cancel looks for the order in the books only.  So it works exactly for the
orders which rest: an order which waits for the auction cannot be cancelled.
-/

namespace InternTradingGame

open Effects

/-- The owner cancels the order, and it is never traded again. -/
def CancelWorks (venue : ExchangeVenue) (order : Order) : Prop :=
  ∃ next,
    ExchangeVenue.cancelOrder order.orderId order.traderId venue =
        .ok true next ∧
      ∀ calls later, Run VenueStep next calls later →
        NoLaterTrade order.orderId next later

section Cancelling

variable {venue : ExchangeVenue} {order : Order}

/-- Only a resting order which the venue knows is ever cancelled. -/
theorem CancelWorks.rests (shape : VenueShape venue)
    (taken : order ∈ venue.market.heap.orders)
    (works : CancelWorks venue order) :
    venue.market.Rests order ∧ order.orderId ∈ venue.allOrderIds := by
  rcases works with ⟨next, succeeds, _⟩
  rcases cancelOrder_cases_venue shape order.orderId order.traderId with
    ⟨other, reached, cancellable, _, _⟩ |
      ⟨_, evaluates | ⟨exception, evaluates⟩⟩
  · have same : other = order :=
      shape.market.eq_of_orderId_eq
        (shape.market.registered other cancellable.rests) taken
        cancellable.orderId
    exact ⟨same ▸ cancellable.rests, cancellable.known⟩
  · cases evaluates.symm.trans succeeds
  · cases evaluates.symm.trans succeeds

/-- A resting order which has not been collected as well is cancelled. -/
theorem CancelWorks.of_rests (shape : VenueShape venue)
    (allowed : venue.currentPhaseState.isOrderCancellationAllowed = true)
    (rests : venue.market.Rests order)
    (known : order.orderId ∈ venue.allOrderIds)
    (absent : ¬ venue.Pending order) : CancelWorks venue order := by
  rcases cancelOrder_cases_venue shape order.orderId order.traderId with
    ⟨other, next, cancellable, evaluates, cancelled⟩ | ⟨none, _⟩
  · obtain rfl : other = order :=
      shape.market.eq_of_orderId_eq
        (shape.market.registered other cancellable.rests)
        (shape.market.registered order rests) cancellable.orderId
    have advances := cancelled.advances shape
    have gone := cancelled.gone shape rests absent
    exact ⟨next, evaluates,
      fun calls later run => (gone.run advances.1 run).2⟩
  · exact absurd ⟨allowed, known, rests, rfl, rfl⟩ (none order)

end Cancelling

/--
In a phase which allows cancels, a cancel of a live order by its owner works
if and only if the order rests in a book.  Without whole quantities a failed
auction can leave an order both resting and collected; then the cancel is
known to work when the order is not collected.  In the run an id stands for
one order, as trades name orders by their ids.
-/
theorem cancelOrder_works_iff {cached baseline : PhaseState}
    {calls : List VenueCall} {venue : ExchangeVenue} {order : Order}
    (run :
      Run VenueStep (ExchangeVenue.new cached baseline) calls venue)
    (allowed : venue.currentPhaseState.isOrderCancellationAllowed = true)
    (live : venue.Live order) :
    ((∀ call ∈ calls, call.WholeQuantity) →
        (CancelWorks venue order ↔ venue.market.Rests order)) ∧
      (CancelWorks venue order →
        venue.market.Rests order ∧
          order.orderId ∈ venue.allOrderIds) ∧
      (venue.market.Rests order → order.orderId ∈ venue.allOrderIds →
        ¬ venue.Pending order → CancelWorks venue order) := by
  have shape := VenueShape.of_run (VenueShape.new cached baseline) run
  have taken := shape.live_taken live
  refine ⟨?_, CancelWorks.rests shape taken,
    CancelWorks.of_rests shape allowed⟩
  intro whole
  have sound :=
    VenueSound.of_run (VenueSound.new cached baseline) run whole
  constructor
  · exact fun works => (works.rests shape taken).1
  · intro rests
    exact CancelWorks.of_rests shape allowed rests
      (sound.known order live)
      fun pending => sound.apart rests pending rfl

/-- A cancel works for an order which rests in the continuous market. -/
theorem cancelOrder_works_continuous :
    CancelWorks
      (replay VenueCall.execute Sample.closedVenue
        Sample.continuousCalls)
      Sample.sellTen := by
  have rests :
      (replay VenueCall.execute Sample.closedVenue
        Sample.continuousCalls).market.Rests Sample.sellTen :=
    ⟨"CALL", _, rfl, by decide +kernel⟩
  exact
    ((cancelOrder_works_iff (run_replay (by decide +kernel))
      (by decide +kernel) (Or.inl rests)).1 (by decide +kernel)).mpr rests

/-- The venue does not cancel an order which waits for the auction. -/
theorem cancelOrder_misses_pending :
    ¬ ∀ (cached baseline : PhaseState) (calls : List VenueCall)
        (venue : ExchangeVenue) (order : Order),
      Run VenueStep (ExchangeVenue.new cached baseline) calls venue →
      venue.currentPhaseState.isOrderCancellationAllowed = true →
      venue.Live order →
        CancelWorks venue order := by
  intro works
  have pending :
      (replay VenueCall.execute Sample.closedVenue
        Sample.preOpenCalls).Pending Sample.sellTen :=
    ⟨"CALL", [Sample.sellTen], by decide +kernel,
      List.mem_singleton_self _⟩
  rcases works _ _ Sample.preOpenCalls _ Sample.sellTen
      (run_replay (by decide +kernel)) (by decide +kernel)
      (Or.inr pending) with
    ⟨next, succeeds, _⟩
  have refused :
      returned
        (ExchangeVenue.cancelOrder "SELL" "MAKER"
          (replay VenueCall.execute Sample.closedVenue
            Sample.preOpenCalls)) = some false := by
    decide +kernel
  have answer : returned (EStateM.Result.ok true next) = some false :=
    (congrArg returned succeeds).symm.trans refused
  cases answer

end InternTradingGame
