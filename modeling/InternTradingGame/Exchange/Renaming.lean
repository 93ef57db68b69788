import InternTradingGame.Exchange.VenueSound

/-!
# Renaming an order which is gone

The history of a venue remembers orders whose ids the venue has forgotten.
Such an id can be given to the old order's namesake: renaming the old order
throughout the history changes nothing the venue shows, and afterwards the
id is free again.
-/

namespace InternTradingGame

/-! ## Renaming an id -/

/-- The id, unless it is the old one. -/
def renameId (old new orderId : String) : String :=
  if orderId = old then new else orderId

theorem renameId_of_ne {old new orderId : String}
    (different : orderId ≠ old) :
    renameId old new orderId = orderId :=
  if_neg different

theorem renameId_inj {old new first second : String}
    (firstUsed : first ≠ new) (secondUsed : second ≠ new) :
    renameId old new first = renameId old new second ↔
      first = second := by
  constructor
  · intro equal
    by_cases isFirst : first = old
    · by_cases isSecond : second = old
      · rw [isFirst, isSecond]
      · rw [renameId, renameId, if_pos isFirst, if_neg isSecond] at equal
        exact absurd equal.symm secondUsed
    · by_cases isSecond : second = old
      · rw [renameId, renameId, if_neg isFirst, if_pos isSecond] at equal
        exact absurd equal firstUsed
      · rw [renameId, renameId, if_neg isFirst, if_neg isSecond] at equal
        exact equal
  · rintro rfl
    rfl

/-- The order under the new id, if it had the old one. -/
def Order.rename (old new : String) (order : Order) : Order :=
  { order with orderId := renameId old new order.orderId }

/-- The trade with the new id in place of the old one on both sides. -/
def Trade.rename (old new : String) (trade : Trade) : Trade :=
  { trade with
    buyerOrderId := renameId old new trade.buyerOrderId
    sellerOrderId := renameId old new trade.sellerOrderId }

/-- The history of the heap with the order renamed. -/
def Heap.rename (old new : String) (heap : Heap) : Heap where
  remainingQuantity orderId :=
    heap.remainingQuantity (if orderId = new then old else orderId)
  orders := heap.orders.map (Order.rename old new)
  trades := heap.trades.map (Trade.rename old new)

/--
The venue in which what is left of the old id is filed under the new one.
The rename is only used for ids no live order has.
-/
def ExchangeVenue.rename (old new : String) (venue : ExchangeVenue) :
    ExchangeVenue :=
  { venue with
    market :=
      { venue.market with heap := venue.market.heap.rename old new } }

section Ids

variable {old new : String}

theorem Order.rename_of_ne {order : Order}
    (different : order.orderId ≠ old) : order.rename old new = order := by
  rw [Order.rename, renameId_of_ne different]

theorem Heap.remainingQuantity_rename {heap : Heap} {orderId : String}
    (used : orderId ≠ new) :
    (heap.rename old new).remainingQuantity orderId =
      heap.remainingQuantity orderId :=
  congrArg heap.remainingQuantity (if_neg used)

theorem Heap.remaining_rename {heap : Heap} {order : Order}
    (used : order.orderId ≠ new) :
    (heap.rename old new).remaining (order.rename old new) =
      heap.remaining order := by
  by_cases isOld : order.orderId = old
  · change heap.remainingQuantity
        (if renameId old new order.orderId = new then old
          else renameId old new order.orderId) =
      heap.remainingQuantity order.orderId
    rw [renameId, if_pos isOld, if_pos rfl, isOld]
  · rw [Order.rename_of_ne isOld]
    exact Heap.remainingQuantity_rename used

/-- The trades of an order keep their total. -/
theorem tradedQuantity_rename {trades : List Trade} {orderId : String}
    (unused : ∀ trade ∈ trades, ¬ trade.Names new)
    (used : orderId ≠ new) :
    tradedQuantity (renameId old new orderId)
        (trades.map (Trade.rename old new)) =
      tradedQuantity orderId trades := by
  have names : ∀ trade ∈ trades,
      ((trade.rename old new).Names (renameId old new orderId) ↔
        trade.Names orderId) := by
    intro trade member
    have apart := not_or.mp (unused trade member)
    rw [Trade.Names, Trade.rename, renameId_inj apart.1 used,
      renameId_inj apart.2 used]
    exact Iff.rfl
  rw [tradedQuantity, tradedQuantity, List.filter_map, List.map_map]
  have same : trades.filter
        ((fun trade => decide (trade.Names (renameId old new orderId))) ∘
          Trade.rename old new) =
      trades.filter fun trade => decide (trade.Names orderId) := by
    apply List.filter_congr
    intro trade member
    exact decide_eq_decide.mpr (names trade member)
  rw [same]
  rfl

theorem TradeBetween.rename {trade : Trade} {buy sell : Order}
    (between : TradeBetween trade buy sell) :
    TradeBetween (trade.rename old new) (buy.rename old new)
      (sell.rename old new) where
  buySide := between.buySide
  sellSide := between.sellSide
  buyerOrder := congrArg (renameId old new) between.buyerOrder
  sellerOrder := congrArg (renameId old new) between.sellerOrder
  buyer := between.buyer
  seller := between.seller
  buyInstrument := between.buyInstrument
  sellInstrument := between.sellInstrument
  buyLimit := between.buyLimit
  sellLimit := between.sellLimit

end Ids

/-! ## Renaming in a sound venue -/

/-- The old id is forgotten, and the new one has never been used. -/
structure Renames (old new : String) (venue : ExchangeVenue) : Prop where
  forgotten : old ∉ venue.allOrderIds
  unknown : new ∉ venue.allOrderIds
  unused : ∀ order ∈ venue.market.heap.orders, order.orderId ≠ new

section Sound

variable {old new : String} {venue : ExchangeVenue}

/-- Live orders are not renamed. -/
theorem Renames.live (renames : Renames old new venue)
    (sound : VenueSound venue) {order : Order}
    (live : venue.Live order) :
    order.orderId ≠ old ∧ order.orderId ≠ new := by
  have known := sound.known order live
  constructor
  · rintro rfl
    exact renames.forgotten known
  · rintro rfl
    exact renames.unknown known

theorem Renames.taken (renames : Renames old new venue)
    (sound : VenueSound venue) {order : Order}
    (live : venue.Live order) :
    order ∈ (venue.rename old new).market.heap.orders := by
  have same : order.rename old new = order :=
    Order.rename_of_ne (renames.live sound live).1
  rw [← same]
  exact List.mem_map_of_mem (sound.shape.live_taken live)

theorem Renames.shape (renames : Renames old new venue)
    (sound : VenueSound venue) : VenueShape (venue.rename old new) where
  market :=
    { books := sound.shape.market.books
      named := sound.shape.market.named
      registered := fun order rests =>
        renames.taken sound (Or.inl rests)
      distinct := by
        have ids : (venue.rename old new).market.heap.orders.map
              Order.orderId =
            (venue.market.heap.orders.map Order.orderId).map
              (renameId old new) := by
          rw [List.map_map]
          exact List.map_map
        rw [ids]
        apply sound.shape.market.distinct.map_on
        intro first firstMember second secondMember equal
        rcases List.mem_map.mp firstMember with ⟨one, oneTaken, rfl⟩
        rcases List.mem_map.mp secondMember with ⟨other, otherTaken, rfl⟩
        exact (renameId_inj (renames.unused one oneTaken)
          (renames.unused other otherTaken)).mp equal }
  instruments := sound.shape.instruments
  pending := by
    intro instrumentId orders found order member
    exact
      ⟨(sound.shape.pending instrumentId orders found order member).1,
        renames.taken sound
          (Or.inr ⟨instrumentId, orders, found, member⟩)⟩

/-- Renamed orders keep their quantities. -/
theorem Renames.remaining (renames : Renames old new venue)
    {order : Order} (taken : order ∈ venue.market.heap.orders) :
    (venue.rename old new).market.heap.remaining (order.rename old new) =
      venue.market.heap.remaining order :=
  Heap.remaining_rename (renames.unused order taken)

/-- No trade has used the new id. -/
theorem Renames.unnamed (renames : Renames old new venue)
    (sound : VenueSound venue) :
    ∀ trade ∈ venue.market.heap.trades, ¬ trade.Names new := by
  intro trade member names
  rcases sound.market.between trade member with
    ⟨buy, buyTaken, sell, sellTaken, between⟩
  rcases (between.names_iff new).mp names with isBuy | isSell
  · exact renames.unused buy buyTaken isBuy
  · exact renames.unused sell sellTaken isSell

theorem Renames.marketSound (renames : Renames old new venue)
    (sound : VenueSound venue) :
    MarketSound (venue.rename old new).market where
  shape := (renames.shape sound).market
  books := by
    intro instrumentId book found
    refine ((sound.market.bookInv found).congr_heap ?_).quantities
    intro order resting
    exact Heap.remainingQuantity_rename
      (renames.live sound (Or.inl ⟨instrumentId, book, found, resting⟩)).2
  fillable := by
    intro order member
    rcases List.mem_map.mp member with ⟨before, taken, rfl⟩
    have fillable := sound.market.fillable before taken
    have same := renames.remaining taken
    constructor
    · rw [same]
      exact fillable.nonnegative
    · rw [same]
      exact fillable.bounded
    · rw [same]
      exact fillable.whole
  accounted := by
    intro order member
    rcases List.mem_map.mp member with ⟨before, taken, rfl⟩
    rw [renames.remaining taken]
    refine Eq.trans ?_ (sound.market.accounted before taken)
    exact tradedQuantity_rename (renames.unnamed sound)
      (renames.unused before taken)
  between := by
    intro trade member
    rcases List.mem_map.mp member with ⟨before, made, rfl⟩
    rcases sound.market.between before made with
      ⟨buy, buyTaken, sell, sellTaken, between⟩
    exact ⟨_, List.mem_map_of_mem buyTaken, _,
      List.mem_map_of_mem sellTaken, between.rename⟩

/-- The venue stays sound, and the old id is free. -/
theorem Renames.sound (renames : Renames old new venue)
    (sound : VenueSound venue) :
    VenueSound (venue.rename old new) where
  shape := renames.shape sound
  market := renames.marketSound sound
  waiting := by
    intro order pending
    have waits := sound.waiting order pending
    refine ⟨renames.taken sound (Or.inr pending), waits.away, ?_⟩
    have used := (renames.live sound (Or.inr pending)).2
    rw [Order.IsFilled, Heap.remaining]
    change ¬ (venue.market.heap.rename old new).remainingQuantity
      order.orderId = 0
    rw [Heap.remainingQuantity_rename used]
    exact waits.unfilled
  distinct := sound.distinct
  known := sound.known

theorem rename_free (different : old ≠ new) :
    ∀ order ∈ (venue.rename old new).market.heap.orders,
      order.orderId ≠ old := by
  intro order member
  rcases List.mem_map.mp member with ⟨before, taken, rfl⟩
  change renameId old new before.orderId ≠ old
  by_cases isOld : before.orderId = old
  · rw [renameId, if_pos isOld]
    exact different.symm
  · rw [renameId_of_ne isOld]
    exact isOld

end Sound

end InternTradingGame
