import InternTradingGame.Exchange.WholeObjects

/-!
# What a cancel changes

A cancel looks through all books, a price map, a guessed side and a level,
and changes the level, the two indexes of the book and the ids of the venue.
It needs nothing but well-formed books whose orders have ids of their own,
which the venue knows.  These hold in every run of whole quantities, also
when a cancelled id or a cancelled order object is submitted again.
-/

namespace InternTradingGame

open Effects

/--
A cancel answers true exactly for the owner of a resting order in a phase
which allows it.  Then it takes the order out, and otherwise, whatever it
answers or raises, the venue is as before.
-/
structure CancelsExactly (venue : ExchangeVenue)
    (orderId traderId : String) : Prop where
  cancels_iff : ∀ order, venue.market.Rests order →
    order.orderId = orderId →
      ((∃ next, ExchangeVenue.cancelOrder orderId traderId venue =
          .ok true next) ↔
        venue.currentPhaseState.isOrderCancellationAllowed = true ∧
          order.traderId = traderId)
  takesOut : ∀ next,
    ExchangeVenue.cancelOrder orderId traderId venue = .ok true next →
      ∃ order, order.orderId = orderId ∧ TakenOut venue order next
  unchanged :
    (∃ next, ExchangeVenue.cancelOrder orderId traderId venue =
        .ok true next) ∨
      ExchangeVenue.cancelOrder orderId traderId venue =
        .ok false venue ∨
      ∃ message, ExchangeVenue.cancelOrder orderId traderId venue =
        .error (.valueError message) venue

section Exact

variable {venue : ExchangeVenue}

/-- Cancels are exact where the resting orders are known by their ids. -/
theorem OwnBooks.cancelsExactly (own : OwnBooks venue.market)
    (known : ∀ order, venue.market.Rests order →
      order.orderId ∈ venue.allOrderIds)
    (orderId traderId : String) :
    CancelsExactly venue orderId traderId := by
  rcases cancelOrder_evaluates own orderId traderId with
    ⟨order, next, cancellable, evaluates, taken⟩ | ⟨none, refuses⟩
  · constructor
    · intro other rests sameId
      have same : other = order :=
        own.distinct _ _ rests cancellable.rests
          (sameId.trans cancellable.orderId.symm)
      refine iff_of_true ⟨next, evaluates⟩ ⟨cancellable.allowed, ?_⟩
      rw [same]
      exact cancellable.owner
    · intro reached succeeds
      cases evaluates.symm.trans succeeds
      exact ⟨order, cancellable.orderId, taken⟩
    · exact Or.inl ⟨next, evaluates⟩
  · have fails : ∀ next,
        ExchangeVenue.cancelOrder orderId traderId venue ≠
          .ok true next := by
      intro next succeeds
      rcases refuses with answers | ⟨message, raises⟩
      · cases answers.symm.trans succeeds
      · cases raises.symm.trans succeeds
    constructor
    · intro order rests sameId
      refine iff_of_false ?_ ?_
      · rintro ⟨next, succeeds⟩
        exact fails next succeeds
      · rintro ⟨allowed, owner⟩
        exact none order
          ⟨allowed, sameId ▸ known order rests, rests, sameId, owner⟩
    · exact fun next succeeds => absurd succeeds (fails next)
    · exact Or.inr refuses

/-- The books are those of a venue in which no id has been used twice. -/
theorem ShowsWhole.ownBooks (shows : ShowsWhole venue) :
    OwnBooks venue.market ∧
      ∀ order, venue.market.Rests order →
        order.orderId ∈ venue.allOrderIds := by
  rcases shows with ⟨clean, whole, same⟩
  have rests : ∀ order, venue.market.Rests order →
      clean.market.Rests order := by
    intro order
    rw [Market.Rests, Market.Rests, same.orderBooks]
    exact id
  have own := whole.fair.shape.market.ownBooks
  refine ⟨⟨same.orderBooks ▸ own.books, ?_⟩, ?_⟩
  · exact fun first second firstRests secondRests =>
      own.distinct first second (rests first firstRests)
        (rests second secondRests)
  · intro order resting
    rw [← same.allOrderIds]
    exact whole.fair.known order (Or.inl (rests order resting))

/--
Every cancel is exact in every run with whole quantities, with any ids and
any order objects.
-/
theorem cancelOrder_exact {cached baseline : PhaseState}
    {calls : List ObjectCall}
    (run : Run ObjectStep (ExchangeVenue.new cached baseline) calls venue)
    (whole : ∀ call ∈ calls, call.WholeLeft)
    (orderId traderId : String) :
    CancelsExactly venue orderId traderId := by
  rcases (ShowsWhole.of_run run whole).ownBooks with ⟨own, known⟩
  exact own.cancelsExactly known orderId traderId

end Exact

/-- What is left of an offer which has come back is cancelled. -/
theorem cancelOrder_exact_handedInAgain :
    CancelsExactly
      (replay ObjectCall.execute Sample.closedVenue Sample.handedInAgain)
      "SELL" "MAKER" :=
  cancelOrder_exact (run_replay (by decide +kernel)) (by decide +kernel)
    "SELL" "MAKER"

end InternTradingGame
