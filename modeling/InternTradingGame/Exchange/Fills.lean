import InternTradingGame.Exchange.VenueRuns

/-!
# The fills of a submission

Every fill of the result of a submission is a trade in which the submitted
order is the aggressor: it stands on its own side of the trade and another
order on the other side.
-/

namespace InternTradingGame

open Effects

/-- The order is the aggressor of the fill. -/
structure AggressorFill (order : Order) (fill : Trade) : Prop where
  instrument : fill.instrumentId = order.instrumentId
  aggressor : fill.aggressorSide = order.side
  buying : order.side = .buy →
    fill.buyerOrderId = order.orderId ∧ fill.buyerId = order.traderId ∧
      fill.sellerOrderId ≠ order.orderId
  selling : order.side = .sell →
    fill.sellerOrderId = order.orderId ∧ fill.sellerId = order.traderId ∧
      fill.buyerOrderId ≠ order.orderId

/-- The order is the aggressor of every trade of the matching loop. -/
theorem Matched.aggressorFill {order : Order} {start part : BookState}
    {trades : List Trade} (shape : BookShape start.book)
    (addable : Addable order start)
    (changes : Matched order start trades part) :
    ∀ fill ∈ trades, AggressorFill order fill := by
  intro fill member
  rcases changes.parties fill member with
    ⟨matching, resting, price, _, _, tradeOf⟩
  have different : matching.orderId ≠ order.orderId := by
    intro equal
    apply addable.absent
    rw [← equal]
    exact (shape.ids _).mpr
      ⟨matching, OrderBook.mem_resting_of_mem resting, rfl⟩
  constructor
  · exact tradeOf.instrument.trans addable.instrument.symm
  · exact tradeOf.aggressor
  · intro side
    rcases tradeOf.buying side with ⟨buyerOrder, buyer, sellerOrder, _⟩
    exact ⟨buyerOrder, buyer, sellerOrder ▸ different⟩
  · intro side
    rcases tradeOf.selling side with ⟨buyerOrder, _, sellerOrder, seller⟩
    exact ⟨sellerOrder, seller, buyerOrder ▸ different⟩

/-- The fills of the continuous engine. -/
theorem continuous_submitOrder_fills {market : Market} {order : Order}
    {book : OrderBook} (shape : MarketShape market)
    (found : market.orderBooks.get? order.instrumentId = some book) :
    Ends (ContinuousMatchingEngine.submitOrder order) market
      (fun result _ => ∀ fill ∈ result.fills, AggressorFill order fill)
      (fun _ _ => True) := by
  have bookShape := shape.books _ book found
  have added : Ends
      (Market.onBook order.instrumentId (OrderBook.addOrder order)) market
      (fun trades _ => ∀ fill ∈ trades, AggressorFill order fill)
      (fun _ _ => True) := by
    apply Market.onBook_ends found
    refine
      (addOrder_ends (fun _ _ => True) bookShape
        (fun _ _ _ _ _ _ _ _ => trivial) (fun _ => trivial)).mono ?_
        (fun _ _ _ => trivial)
    rintro trades part ⟨addable, _, _, changes, _⟩
    exact changes.aggressorFill bookShape addable
  rw [ContinuousMatchingEngine.submitOrder]
  apply added.bind
  intro trades after fills
  exact fills

/-- The fills of a submission to the venue. -/
theorem SubmitReturns.aggressorFill {venue next : ExchangeVenue}
    {order : Order} {result : OrderResult} (shape : VenueShape venue)
    (returns : SubmitReturns venue order result next) :
    ∀ fill ∈ result.fills, AggressorFill order fill := by
  cases returns with
  | refused _ => exact fun _ impossible => absurd impossible List.not_mem_nil
  | collected _ _ =>
      exact fun _ impossible => absurd impossible List.not_mem_nil
  | matched takes _ evaluates _ _ _ _ =>
      rcases (OrderedDict.contains_iff_exists _ _).mp takes.listed with
        ⟨book, found⟩
      have registered := register_shape shape takes.fresh
      exact (continuous_submitOrder_fills registered.market
        found).elim_ok evaluates

end InternTradingGame
