import InternTradingGame.OrderBook.Cancellation

/-!
# The books of an exchange

A market is the order books of all instruments together with the heap of
order objects they share.  The matching engines and the venue run programs
of a book on the book of one instrument.

`Trading` says what such programs have in common: they record trades between
orders of a given set, account for them in the remaining quantities, and
leave only orders of that set in the books.
-/

namespace InternTradingGame

open Effects

/-! ## Markets -/

/--
What the matching engines share: the order objects and the order books, one
for each listed instrument.
-/
structure Market where
  heap : Heap
  orderBooks : OrderedDict String OrderBook

/-- Programs on the market; changes made before an exception stay. -/
abbrev MarketM := EStateM PyError Market

namespace Market

/-- Run a program of a book on the book of one instrument. -/
def onBook {α : Type} (instrumentId : String) (program : BookM α) :
    MarketM α := do
  let market ← get
  match market.orderBooks.get? instrumentId with
  | none => throw (.keyError instrumentId)
  | some book =>
      zoom (fun market => ⟨market.heap, book⟩)
        (fun part market =>
          { heap := part.heap
            orderBooks := market.orderBooks.set instrumentId part.book })
        program

/-- The order rests in some book. -/
def Rests (market : Market) (order : Order) : Prop :=
  ∃ instrumentId book,
    market.orderBooks.get? instrumentId = some book ∧
      order ∈ book.resting

/-- The quantities of all books are sound. -/
def Quantities (market : Market) : Prop :=
  ∀ instrumentId book,
    market.orderBooks.get? instrumentId = some book →
      BookQuantities ⟨market.heap, book⟩

/-- The market with one book and the heap replaced. -/
def withBook (market : Market) (instrumentId : String)
    (part : BookState) : Market where
  heap := part.heap
  orderBooks := market.orderBooks.set instrumentId part.book

theorem onBook_ends {α : Type} {market : Market}
    {instrumentId : String} {book : OrderBook} {program : BookM α}
    {normal : α → Market → Prop} {raised : PyError → Market → Prop}
    (found : market.orderBooks.get? instrumentId = some book)
    (ends : Ends program ⟨market.heap, book⟩
      (fun value part =>
        normal value (market.withBook instrumentId part))
      (fun exception part =>
        raised exception (market.withBook instrumentId part))) :
    Ends (onBook instrumentId program) market normal raised := by
  rw [onBook, ends_get_bind, found]
  exact Ends.zoom ends

theorem onBook_ok {α : Type} {market : Market}
    {instrumentId : String} {book : OrderBook} {program : BookM α}
    {value : α} {part : BookState}
    (found : market.orderBooks.get? instrumentId = some book)
    (evaluates : program ⟨market.heap, book⟩ = .ok value part) :
    onBook instrumentId program market =
      .ok value (market.withBook instrumentId part) := by
  simp only [onBook, bind_apply, get_apply, found]
  exact zoom_ok evaluates

theorem withBook_get?_self (market : Market) (instrumentId : String)
    (part : BookState) :
    (market.withBook instrumentId part).orderBooks.get? instrumentId =
      some part.book :=
  OrderedDict.get?_set_self ..

theorem withBook_get?_ne (market : Market) {instrumentId other : String}
    (part : BookState) (different : other ≠ instrumentId) :
    (market.withBook instrumentId part).orderBooks.get? other =
      market.orderBooks.get? other :=
  OrderedDict.get?_set_ne _ _ different

theorem withBook_keys {market : Market} {instrumentId : String}
    {book : OrderBook} (part : BookState)
    (found : market.orderBooks.get? instrumentId = some book) :
    (market.withBook instrumentId part).orderBooks.keys =
      market.orderBooks.keys :=
  OrderedDict.keys_set_of_contains _
    (OrderedDict.contains_of_get? found)

/-- What rests after one book has been replaced. -/
theorem rests_withBook {market : Market} {instrumentId : String}
    {part : BookState} {order : Order}
    (rests : (market.withBook instrumentId part).Rests order) :
    order ∈ part.book.resting ∨
      ∃ other book, other ≠ instrumentId ∧
        market.orderBooks.get? other = some book ∧
        order ∈ book.resting := by
  rcases rests with ⟨other, book, found, member⟩
  by_cases same : other = instrumentId
  · rw [same, withBook_get?_self] at found
    rcases Option.some.inj found with rfl
    exact Or.inl member
  · rw [withBook_get?_ne _ _ same] at found
    exact Or.inr ⟨other, book, same, found, member⟩

end Market

/-! ## Trades between orders -/

/-- The trade is one between the two orders, within both their limits. -/
structure TradeBetween (trade : Trade) (buy sell : Order) : Prop where
  buySide : buy.side = .buy
  sellSide : sell.side = .sell
  buyerOrder : trade.buyerOrderId = buy.orderId
  sellerOrder : trade.sellerOrderId = sell.orderId
  buyer : trade.buyerId = buy.traderId
  seller : trade.sellerId = sell.traderId
  buyInstrument : trade.instrumentId = buy.instrumentId
  sellInstrument : trade.instrumentId = sell.instrumentId
  buyLimit : ∀ limit ∈ buy.price, trade.price ≤ limit
  sellLimit : ∀ limit ∈ sell.price, limit ≤ trade.price

theorem TradeBetween.names_iff {trade : Trade} {buy sell : Order}
    (between : TradeBetween trade buy sell) (orderId : String) :
    trade.Names orderId ↔
      buy.orderId = orderId ∨ sell.orderId = orderId := by
  rw [Trade.Names, between.buyerOrder, between.sellerOrder]

/-- A trade of the matching loop is one between its two orders. -/
theorem tradeBetween_of_tradeOf {trade : Trade} {instrumentId : String}
    {order matching : Order} {price quantity : ℚ}
    (tradeOf :
      OrderBook.TradeOf trade instrumentId order matching price quantity)
    (opposite : matching.side = order.side.opposite)
    (priced : matching.price = some price)
    (accepted : ¬ order.Refuses price)
    (orderInstrument : order.instrumentId = instrumentId)
    (matchingInstrument : matching.instrumentId = instrumentId) :
    TradeBetween trade order matching ∨
      TradeBetween trade matching order := by
  have atMatching : ∀ limit ∈ matching.price, limit = trade.price := by
    intro limit member
    rw [tradeOf.atPrice]
    exact Option.some.inj (Eq.trans (Eq.symm member) priced)
  have within : ∀ limit ∈ order.price,
      ¬ order.side.Better trade.price limit := by
    intro limit member better
    apply accepted
    rw [← tradeOf.atPrice]
    exact (order.refuses_iff _).mpr ⟨limit, member, better⟩
  cases side : order.side with
  | buy =>
      rcases tradeOf.buying side with ⟨buyerOrder, buyer, sellerOrder, seller⟩
      rw [side] at within opposite
      exact Or.inl
        { buySide := side
          sellSide := opposite
          buyerOrder, sellerOrder, buyer, seller
          buyInstrument := tradeOf.instrument.trans orderInstrument.symm
          sellInstrument :=
            tradeOf.instrument.trans matchingInstrument.symm
          buyLimit := fun limit member =>
            not_lt.mp (within limit member)
          sellLimit := fun limit member =>
            (atMatching limit member).le }
  | sell =>
      rcases tradeOf.selling side with
        ⟨buyerOrder, buyer, sellerOrder, seller⟩
      rw [side] at within opposite
      exact Or.inr
        { buySide := opposite
          sellSide := side
          buyerOrder, sellerOrder, buyer, seller
          buyInstrument :=
            tradeOf.instrument.trans matchingInstrument.symm
          sellInstrument := tradeOf.instrument.trans orderInstrument.symm
          buyLimit := fun limit member =>
            (atMatching limit member).ge
          sellLimit := fun limit member =>
            not_lt.mp (within limit member) }

/-! ## Trading -/

/-- Trades have been made between orders of a set. -/
structure Trading (parties : Order → Prop) (before : Market)
    (made : List Trade) (after : Market) : Prop where
  orders : after.heap.orders = before.heap.orders
  recorded : after.heap.trades = before.heap.trades ++ made
  accounts : ∀ orderId,
    after.heap.remainingQuantity orderId =
      before.heap.remainingQuantity orderId -
        tradedQuantity orderId made
  between : ∀ trade ∈ made, ∃ buy sell,
    parties buy ∧ parties sell ∧ TradeBetween trade buy sell
  rests : ∀ order, after.Rests order → parties order
  keys : after.orderBooks.keys = before.orderBooks.keys

namespace Trading

variable {parties wider : Order → Prop}
  {before middle after : Market} {made more : List Trade}

theorem refl (rests : ∀ order, before.Rests order → parties order) :
    Trading parties before [] before where
  orders := rfl
  recorded := (List.append_nil _).symm
  accounts := by simp
  between := by simp
  rests := rests
  keys := rfl

theorem mono (trading : Trading parties before made after)
    (weaker : ∀ order, parties order → wider order) :
    Trading wider before made after where
  orders := trading.orders
  recorded := trading.recorded
  accounts := trading.accounts
  between := by
    intro trade member
    rcases trading.between trade member with
      ⟨buy, sell, buyParty, sellParty, between⟩
    exact ⟨buy, sell, weaker buy buyParty, weaker sell sellParty,
      between⟩
  rests order rests := weaker order (trading.rests order rests)
  keys := trading.keys

theorem trans (first : Trading parties before made middle)
    (second : Trading parties middle more after) :
    Trading parties before (made ++ more) after where
  orders := second.orders.trans first.orders
  recorded := by
    rw [second.recorded, first.recorded, List.append_assoc]
  accounts := by
    intro orderId
    rw [second.accounts, first.accounts, tradedQuantity_append, sub_sub]
  between := by
    intro trade member
    rcases List.mem_append.mp member with early | late
    · exact first.between trade early
    · exact second.between trade late
  rests := second.rests
  keys := second.keys.trans first.keys

/-- A trade names only orders of the set. -/
theorem named (trading : Trading parties before made after)
    {trade : Trade} (member : trade ∈ made) {orderId : String}
    (names : trade.Names orderId) :
    ∃ order, parties order ∧ order.orderId = orderId := by
  rcases trading.between trade member with
    ⟨buy, sell, buyParty, sellParty, between⟩
  rcases (between.names_iff orderId).mp names with isBuy | isSell
  · exact ⟨buy, buyParty, isBuy⟩
  · exact ⟨sell, sellParty, isSell⟩

/-- The remaining quantity of an order outside the set is not touched. -/
theorem unnamed (trading : Trading parties before made after)
    {orderId : String}
    (outside : ∀ order, parties order → order.orderId ≠ orderId) :
    after.heap.remainingQuantity orderId =
      before.heap.remainingQuantity orderId := by
  rw [trading.accounts, tradedQuantity_eq_zero, sub_zero]
  intro trade member names
  rcases trading.named member names with ⟨order, party, equal⟩
  exact outside order party equal

end Trading

/-! ## The shape of a market -/

/-- What holds of all books whatever the quantities of their orders are. -/
structure MarketShape (market : Market) : Prop where
  books : ∀ instrumentId book,
    market.orderBooks.get? instrumentId = some book → BookShape book
  named : ∀ instrumentId book,
    market.orderBooks.get? instrumentId = some book →
      book.instrumentId = instrumentId
  registered : ∀ order, market.Rests order → order ∈ market.heap.orders
  distinct : (market.heap.orders.map Order.orderId).Nodup

namespace MarketShape

variable {market : Market}

theorem eq_of_orderId_eq (shape : MarketShape market)
    {first second : Order}
    (firstMember : first ∈ market.heap.orders)
    (secondMember : second ∈ market.heap.orders)
    (equal : first.orderId = second.orderId) : first = second :=
  List.inj_on_of_nodup_map shape.distinct firstMember secondMember equal

/-- A resting order stands in the book of its instrument. -/
theorem instrument_of_rests (shape : MarketShape market)
    {instrumentId : String} {book : OrderBook} {order : Order}
    (found : market.orderBooks.get? instrumentId = some book)
    (member : order ∈ book.resting) :
    order.instrumentId = instrumentId := by
  have bookShape := shape.books instrumentId book found
  rcases OrderBook.exists_side member with ⟨side, onSide⟩
  rcases OrderBook.mem_restingOn_iff.mp onSide with
    ⟨level, levelMember, inLevel⟩
  exact ((bookShape.side side).ownInstrument level levelMember order
    inLevel).trans (shape.named instrumentId book found)

/-- Replacing one book by a well-formed one keeps the shape. -/
theorem withBook (shape : MarketShape market)
    {instrumentId : String} {part : BookState}
    (bookShape : BookShape part.book)
    (bookNamed : part.book.instrumentId = instrumentId)
    (orders : part.heap.orders = market.heap.orders)
    (registered : ∀ order ∈ part.book.resting,
      order ∈ market.heap.orders) :
    MarketShape (market.withBook instrumentId part) where
  books := by
    intro other book found
    by_cases same : other = instrumentId
    · rw [same, Market.withBook_get?_self] at found
      exact Option.some.inj found ▸ bookShape
    · rw [Market.withBook_get?_ne _ _ same] at found
      exact shape.books other book found
  named := by
    intro other book found
    by_cases same : other = instrumentId
    · rw [same, Market.withBook_get?_self] at found
      exact (Option.some.inj found ▸ bookNamed).trans same.symm
    · rw [Market.withBook_get?_ne _ _ same] at found
      exact shape.named other book found
  registered := by
    intro order rests
    change order ∈ part.heap.orders
    rw [orders]
    rcases Market.rests_withBook rests with
      inPart | ⟨other, book, _, found, member⟩
    · exact registered order inPart
    · exact shape.registered order ⟨other, book, found, member⟩
  distinct := by
    change (part.heap.orders.map Order.orderId).Nodup
    rw [orders]
    exact shape.distinct

end MarketShape

/-! ## Adding an order to a book of the market -/

section AddOrder

variable {market : Market} {order : Order} {book : OrderBook}
  {instrumentId : String} {part : BookState} {trades : List Trade}

/-- Who may trade when an order is added. -/
def AddParties (market : Market) (order candidate : Order) : Prop :=
  candidate = order ∨ market.Rests candidate

/-- The trades of the matching loop, seen from the market. -/
theorem trading_of_matched (shape : MarketShape market)
    (found : market.orderBooks.get? instrumentId = some book)
    (instrument : order.instrumentId = instrumentId)
    (changes : Matched order ⟨market.heap, book⟩ trades part)
    {final : BookState} (heap : final.heap = part.heap)
    (rests : ∀ candidate ∈ final.book.resting,
      candidate = order ∨ candidate ∈ part.book.resting) :
    Trading (AddParties market order) market trades
      (market.withBook instrumentId final) where
  orders := (congrArg Heap.orders heap).trans changes.orders
  recorded := (congrArg Heap.trades heap).trans changes.recorded
  accounts := by
    intro orderId
    change final.heap.remainingQuantity orderId = _
    rw [heap]
    exact changes.accounts orderId
  between := by
    intro trade member
    rcases changes.parties trade member with
      ⟨matching, resting, price, priced, accepted, tradeOf⟩
    have matchingRests : market.Rests matching :=
      ⟨instrumentId, book, found, OrderBook.mem_resting_of_mem resting⟩
    have bookShape := shape.books instrumentId book found
    rcases OrderBook.mem_restingOn_iff.mp resting with
      ⟨level, levelMember, inLevel⟩
    have bookNamed := shape.named instrumentId book found
    rcases tradeBetween_of_tradeOf tradeOf
        ((bookShape.side _).ownSide level levelMember matching inLevel)
        priced accepted (instrument.trans bookNamed.symm)
        ((bookShape.side _).ownInstrument level levelMember matching
          inLevel) with between | between
    · exact ⟨order, matching, Or.inl rfl, Or.inr matchingRests, between⟩
    · exact ⟨matching, order, Or.inr matchingRests, Or.inl rfl, between⟩
  rests := by
    intro candidate candidateRests
    rcases Market.rests_withBook candidateRests with
      inFinal | ⟨other, otherBook, _, otherFound, member⟩
    · rcases rests candidate inFinal with equal | inPart
      · exact Or.inl equal
      · exact Or.inr
          ⟨instrumentId, book, found, changes.resting_subset inPart⟩
    · exact Or.inr ⟨other, otherBook, otherFound, member⟩
  keys := Market.withBook_keys final found

end AddOrder

end InternTradingGame
