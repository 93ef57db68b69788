import InternTradingGame.Exchange.BatchClearing

/-!
# The trades of a batch, in the order they are made

The heap records every trade.  What an order had left at the moment of a
trade is what it had at first without what it has traded before.
-/

namespace InternTradingGame

/-! ## Orders which rest -/

section Resting

variable {state : BookState} {order bid ask : Order} {side : OrderSide}

theorem BookShape.side_of_mem (shape : BookShape state.book)
    (member : order ∈ state.book.restingOn side) : order.side = side := by
  rcases OrderBook.mem_restingOn_iff.mp member with
    ⟨level, levelMember, inLevel⟩
  exact (shape.side side).ownSide level levelMember order inLevel

theorem BookShape.mem_restingOn (shape : BookShape state.book)
    (member : order ∈ state.book.resting) (isSide : order.side = side) :
    order ∈ state.book.restingOn side := by
  rcases OrderBook.exists_side member with ⟨own, onOwn⟩
  rcases (shape.side_of_mem onOwn).symm.trans isSide with rfl
  exact onOwn

theorem BookShape.instrument_of_mem (shape : BookShape state.book)
    (member : order ∈ state.book.resting) :
    order.instrumentId = state.book.instrumentId := by
  rcases OrderBook.exists_side member with ⟨side, onSide⟩
  rcases OrderBook.mem_restingOn_iff.mp onSide with
    ⟨level, levelMember, inLevel⟩
  exact (shape.side side).ownInstrument level levelMember order inLevel

/-- The bids of a book are below its asks. -/
theorem BookShape.uncrossed_limits (shape : BookShape state.book)
    (bidMember : bid ∈ state.book.restingOn .buy)
    (askMember : ask ∈ state.book.restingOn .sell) :
    bid.limit < ask.limit := by
  rcases OrderBook.mem_restingOn_iff.mp bidMember with
    ⟨bidLevel, bidLevelMember, inBidLevel⟩
  rcases OrderBook.mem_restingOn_iff.mp askMember with
    ⟨askLevel, askLevelMember, inAskLevel⟩
  rw [limit_of_mem shape bidLevelMember inBidLevel,
    limit_of_mem shape askLevelMember inAskLevel]
  exact shape.uncrossed bidLevel bidLevelMember askLevel askLevelMember

end Resting

/-! ## The trade of a taker -/

section Between

variable {fill : Fill} {order : Order} {state : BookState}

theorem Fill.Next.matching_side (next : fill.Next order state)
    (shape : BookShape state.book) :
    fill.matching.side = order.side.opposite :=
  (shape.side _).ownSide fill.best next.mem_levels fill.matching
    next.mem_orders

/-- The loop trades between the incoming order and a resting one. -/
theorem Fill.Next.between (next : fill.Next order state)
    (shape : BookShape state.book)
    (instrument : order.instrumentId = state.book.instrumentId) :
    (order.side = .buy → TradeBetween fill.trade order fill.matching) ∧
      (order.side = .sell →
        TradeBetween fill.trade fill.matching order) := by
  have opposite := next.matching_side shape
  have inside := (shape.side _).ownInstrument fill.best next.mem_levels
    fill.matching next.mem_orders
  have priced := (shape.side _).ownPrice fill.best next.mem_levels
    fill.matching next.mem_orders
  have either := tradeBetween_of_tradeOf next.tradeOf opposite priced
    next.accepted instrument inside
  constructor
  · intro buys
    rcases either with between | between
    · exact between
    · have clash := between.sellSide
      rw [buys] at clash
      cases clash
  · intro sells
    rcases either with between | between
    · have clash := between.buySide
      rw [sells] at clash
      cases clash
    · exact between

end Between

/-! ## Trades since a heap -/

/-- What an order has left once some trades have been made. -/
def leftAfter (base : Heap) (made : List Trade) (order : Order) : ℚ :=
  base.remaining order - tradedQuantity order.orderId made

/-- These trades have been made since a heap, between orders of a set. -/
structure Logged (base : Heap) (parties : Order → Prop)
    (made : List Trade) (heap : Heap) : Prop where
  recorded : heap.trades = base.trades ++ made
  accounts : ∀ orderId,
    heap.remainingQuantity orderId =
      base.remainingQuantity orderId - tradedQuantity orderId made
  between : ∀ trade ∈ made, ∃ buy sell,
    parties buy ∧ parties sell ∧ TradeBetween trade buy sell

namespace Logged

variable {base heap after : Heap} {parties wider : Order → Prop}
  {made : List Trade} {buy sell first second : Order} {trade : Trade}

theorem refl (base : Heap) (parties : Order → Prop) :
    Logged base parties [] base where
  recorded := (List.append_nil _).symm
  accounts := by simp
  between := by simp

theorem remaining (logged : Logged base parties made heap)
    (order : Order) :
    heap.remaining order = leftAfter base made order :=
  logged.accounts order.orderId

theorem mono (logged : Logged base parties made heap)
    (weaker : ∀ order, parties order → wider order) :
    Logged base wider made heap where
  recorded := logged.recorded
  accounts := logged.accounts
  between := by
    intro trade member
    rcases logged.between trade member with
      ⟨buy, sell, buyParty, sellParty, between⟩
    exact ⟨buy, sell, weaker buy buyParty, weaker sell sellParty,
      between⟩

theorem trans {more : List Trade} (logged : Logged base parties made heap)
    (next : Logged heap parties more after) :
    Logged base parties (made ++ more) after where
  recorded := by
    rw [next.recorded, logged.recorded, List.append_assoc]
  accounts := by
    intro orderId
    rw [next.accounts, logged.accounts, tradedQuantity_append, sub_sub]
  between := by
    intro trade member
    rcases List.mem_append.mp member with early | late
    · exact logged.between trade early
    · exact next.between trade late

/-- One more trade between two orders of the set. -/
theorem step (logged : Logged base parties made heap)
    (settles : Settles trade first second heap after)
    (between : TradeBetween trade buy sell)
    (same : first = buy ∧ second = sell ∨ first = sell ∧ second = buy)
    (buyParty : parties buy) (sellParty : parties sell) :
    Logged base parties (made ++ [trade]) after where
  recorded := by
    rw [settles.recorded, logged.recorded, List.append_assoc]
  accounts := by
    intro orderId
    have settled : after.remainingQuantity orderId =
        heap.remainingQuantity orderId -
          if orderId = first.orderId ∨ orderId = second.orderId then
            trade.quantity
          else
            0 :=
      settles.remaining { first with orderId := orderId }
    have named : trade.Names orderId ↔
        orderId = first.orderId ∨ orderId = second.orderId := by
      rw [between.names_iff]
      rcases same with ⟨rfl, rfl⟩ | ⟨rfl, rfl⟩
      · rw [eq_comm, or_congr Iff.rfl eq_comm]
      · rw [or_comm, eq_comm, or_congr Iff.rfl eq_comm]
    rw [settled, logged.accounts, tradedQuantity_append,
      tradedQuantity_singleton, sub_sub]
    simp only [named]
  between := by
    intro other member
    rcases List.mem_append.mp member with early | last
    · exact logged.between other early
    · rcases List.mem_singleton.mp last with rfl
      exact ⟨buy, sell, buyParty, sellParty, between⟩

end Logged

end InternTradingGame
