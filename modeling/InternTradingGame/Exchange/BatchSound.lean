import InternTradingGame.Exchange.Accounting

/-!
# Batches and whole quantities

A batch starts with a sound market and collected orders which wait: they are
unfilled and do not rest yet.  Every pair which trades, and every order which
is left to the book, keeps the market sound and the orders still to come
waiting.  So a batch never raises.
-/

namespace InternTradingGame

open Effects

/-- The market is sound and the orders still to come wait for it. -/
structure BatchSound (left : List Order) (context : BatchContext) :
    Prop where
  sound : MarketSound context.market
  waiting : ∀ order ∈ left, Waiting context.market order
  distinct : left.Nodup

namespace BatchSound

variable {left kept rest : List Order} {context : BatchContext}

theorem subset (batch : BatchSound left context)
    (sublist : kept.Sublist left) : BatchSound kept context where
  sound := batch.sound
  waiting order member := batch.waiting order (sublist.subset member)
  distinct := batch.distinct.sublist sublist

/-- The order of the orders still to come does not matter. -/
theorem perm (batch : BatchSound left context)
    (same : left.Perm kept) : BatchSound kept context where
  sound := batch.sound
  waiting order member := batch.waiting order (same.mem_iff.mpr member)
  distinct := same.nodup_iff.mp batch.distinct

theorem positive (batch : BatchSound left context) {order : Order}
    (member : order ∈ left) :
    0 < context.market.heap.remaining order := by
  have waiting := batch.waiting order member
  exact (batch.sound.fillable order waiting.taken).positive
    waiting.unfilled

end BatchSound

/-! ## Pairs -/

section Pair

variable {buyOrder sellOrder : Order} {buyOrders sellOrders : List Order}
  {rest : List Order} {context : BatchContext}

/-- A buy order and a sell order still to come have different ids. -/
theorem BatchSound.apart
    (batch : BatchSound
      (buyOrder :: buyOrders ++ (sellOrder :: sellOrders ++ rest))
      context)
    (buySide : buyOrder.side = .buy)
    (sellSide : sellOrder.side = .sell) :
    buyOrder.orderId ≠ sellOrder.orderId := by
  intro equal
  have same := batch.sound.shape.eq_of_orderId_eq
    (batch.waiting buyOrder (by simp)).taken
    (batch.waiting sellOrder (by simp)).taken equal
  rw [same, sellSide] at buySide
  cases buySide

/-- A crossing pair of waiting orders always makes a trade. -/
theorem BatchSound.exists_pairTrade
    (batch : BatchSound
      (buyOrder :: buyOrders ++ (sellOrder :: sellOrders ++ rest))
      context)
    (crosses : Crosses buyOrder sellOrder) :
    ∃ trade, pairTrade buyOrder sellOrder context.market = .ok trade := by
  have buyMember : buyOrder ∈
      buyOrder :: buyOrders ++ (sellOrder :: sellOrders ++ rest) := by
    simp
  have sellMember : sellOrder ∈
      buyOrder :: buyOrders ++ (sellOrder :: sellOrders ++ rest) := by
    simp
  rcases crosses with ⟨bid, ask, _, askPriced, _⟩
  simp only [pairTrade, BatchMatchingEngine.createTrade, askPriced]
  apply Trade.exists_new
  · exact sellOrder.price_positive ask askPriced
  · exact lt_min (batch.positive buyMember) (batch.positive sellMember)
  · exact
      (batch.sound.fillable _ (batch.waiting _ buyMember).taken).whole.min
        (batch.sound.fillable _ (batch.waiting _ sellMember).taken).whole

/-- The two orders of a pair lose what they trade, others nothing. -/
theorem settleTrade_remaining_other {market : Market} {trade : Trade}
    {other : Order} (notBuy : other.orderId ≠ buyOrder.orderId)
    (notSell : other.orderId ≠ sellOrder.orderId) :
    (BatchMatchingEngine.settleTrade trade buyOrder sellOrder
        market).heap.remaining other =
      market.heap.remaining other :=
  (Heap.remaining_setRemaining_ne _ _ notSell).trans
    (Heap.remaining_setRemaining_ne _ _ notBuy)

/-- A pair leaves every order with a whole part of its quantity. -/
theorem settleTrade_fillable {market : Market} {trade : Trade}
    (sound : MarketSound market)
    (buyTaken : buyOrder ∈ market.heap.orders)
    (sellTaken : sellOrder ∈ market.heap.orders)
    (different : buyOrder.orderId ≠ sellOrder.orderId)
    (quantity :
      trade.quantity =
        min (market.heap.remaining buyOrder)
          (market.heap.remaining sellOrder)) :
    ∀ order ∈ market.heap.orders,
      order.Fillable
        (BatchMatchingEngine.settleTrade trade buyOrder sellOrder
          market).heap := by
  intro order taken
  have fillable := sound.fillable order taken
  by_cases isBuy : order.orderId = buyOrder.orderId
  · rcases sound.shape.eq_of_orderId_eq taken buyTaken isBuy with rfl
    exact fillable.subtract trade.quantity_positive trade.quantity_whole
      (quantity ▸ min_le_left _ _) (settleTrade_remaining_buy different)
  · by_cases isSell : order.orderId = sellOrder.orderId
    · rcases sound.shape.eq_of_orderId_eq taken sellTaken isSell with rfl
      exact fillable.subtract trade.quantity_positive
        trade.quantity_whole (quantity ▸ min_le_right _ _)
        (settleTrade_remaining_sell different)
    · exact fillable.congr (settleTrade_remaining_other isBuy isSell)

/-- The book of the pair has the same levels and one more trade. -/
theorem settleTrade_quantities {market : Market} {trade : Trade}
    {book : OrderBook} (sound : MarketSound market)
    (found : market.orderBooks.get? trade.instrumentId = some book)
    (buyTaken : buyOrder ∈ market.heap.orders)
    (sellTaken : sellOrder ∈ market.heap.orders)
    (buyAway : ¬ market.Rests buyOrder)
    (sellAway : ¬ market.Rests sellOrder) :
    BookQuantities
      ⟨(BatchMatchingEngine.settleTrade trade buyOrder sellOrder
        market).heap, book.appendTrade trade⟩ := by
  have agree : ∀ order ∈ book.resting,
      (BatchMatchingEngine.settleTrade trade buyOrder sellOrder
        market).heap.remaining order = market.heap.remaining order := by
    intro order member
    have rests : market.Rests order := ⟨_, book, found, member⟩
    have taken := sound.shape.registered order rests
    apply settleTrade_remaining_other
    · intro equal
      exact buyAway
        (sound.shape.eq_of_orderId_eq taken buyTaken equal ▸ rests)
    · intro equal
      exact sellAway
        (sound.shape.eq_of_orderId_eq taken sellTaken equal ▸ rests)
  have quantities := ((sound.bookInv found).congr_heap agree).quantities
  have same := appendTrade_sameShape book trade
  constructor
  · intro side level member
    rw [OrderBook.levels_appendTrade] at member
    exact quantities.totals side level member
  · intro order member
    rw [same.resting] at member
    exact quantities.fillable order member
  · intro order member
    rw [same.resting] at member
    exact quantities.positive order member

theorem unlessFilled_sublist (order : Order) (orders : List Order)
    (heap : Heap) :
    (unlessFilled order orders heap).Sublist (order :: orders) := by
  unfold unlessFilled
  split_ifs
  · exact List.sublist_cons_self _ _
  · exact List.Sublist.refl _

theorem mem_unlessFilled {order candidate : Order} {orders : List Order}
    {heap : Heap} (member : candidate ∈ unlessFilled order orders heap) :
    candidate ∈ orders ∨
      candidate = order ∧ ¬ candidate.IsFilled heap := by
  unfold unlessFilled at member
  split_ifs at member with filled
  · exact Or.inl member
  · rcases List.mem_cons.mp member with rfl | inOrders
    · exact Or.inr ⟨rfl, filled⟩
    · exact Or.inl inOrders

/-- The orders still to come once a pair has traded. -/
def afterPair (buyOrder sellOrder : Order)
    (buyOrders sellOrders rest : List Order) (heap : Heap) :
    List Order :=
  unlessFilled buyOrder buyOrders heap ++
    (unlessFilled sellOrder sellOrders heap ++ rest)

theorem afterPair_sublist (heap : Heap) :
    (afterPair buyOrder sellOrder buyOrders sellOrders rest
      heap).Sublist
      (buyOrder :: buyOrders ++ (sellOrder :: sellOrders ++ rest)) :=
  (unlessFilled_sublist _ _ _).append
    ((unlessFilled_sublist _ _ _).append (List.Sublist.refl rest))

/-- An order of a pair which is still to come is not filled. -/
theorem mem_afterPair {heap : Heap} {candidate : Order}
    (distinct :
      (buyOrder :: buyOrders ++
        (sellOrder :: sellOrders ++ rest)).Nodup)
    (member : candidate ∈
      afterPair buyOrder sellOrder buyOrders sellOrders rest heap) :
    candidate ≠ buyOrder ∧ candidate ≠ sellOrder ∨
      ¬ candidate.IsFilled heap := by
  simp only [List.cons_append, List.nodup_cons, List.mem_append,
    List.mem_cons, List.nodup_append, not_or] at distinct
  rcases distinct with
    ⟨⟨buyAbsent, notSell, buyNotSells, buyNotRest⟩, _, ⟨⟨sellNotSells,
      sellNotRest⟩, _⟩, apart⟩
  rcases List.mem_append.mp member with buying | inOthers
  · rcases mem_unlessFilled buying with inBuys | ⟨_, unfilled⟩
    · refine Or.inl
        ⟨?_, apart candidate inBuys sellOrder (Or.inl rfl)⟩
      rintro rfl
      exact buyAbsent inBuys
    · exact Or.inr unfilled
  · rcases List.mem_append.mp inOthers with selling | inRest
    · rcases mem_unlessFilled selling with inSells | ⟨_, unfilled⟩
      · refine Or.inl ⟨?_, ?_⟩
        · rintro rfl
          exact buyNotSells inSells
        · rintro rfl
          exact sellNotSells inSells
      · exact Or.inr unfilled
    · refine Or.inl ⟨?_, ?_⟩
      · rintro rfl
        exact buyNotRest inRest
      · rintro rfl
        exact sellNotRest inRest

/-- A pair of waiting orders which trades keeps the market sound. -/
theorem settleTrade_sound {market : Market} {trade : Trade}
    {book : OrderBook} (sound : MarketSound market)
    (found : market.orderBooks.get? trade.instrumentId = some book)
    (buyWaits : Waiting market buyOrder)
    (sellWaits : Waiting market sellOrder)
    (between : TradeBetween trade buyOrder sellOrder)
    (different : buyOrder.orderId ≠ sellOrder.orderId)
    (quantity :
      trade.quantity =
        min (market.heap.remaining buyOrder)
          (market.heap.remaining sellOrder)) :
    MarketSound
        (BatchMatchingEngine.settleTrade trade buyOrder sellOrder
          market) ∧
      (BatchMatchingEngine.settleTrade trade buyOrder sellOrder
        market).orderBooks.keys = market.orderBooks.keys := by
  let parties : Order → Prop := fun order =>
    order = buyOrder ∨ order = sellOrder ∨ market.Rests order
  have traded :=
    @settleTrade_traded parties _ _ _ _ _ sound.shape found
      (fun _ rests => Or.inr (Or.inr rests)) between different
      (Or.inl rfl) (Or.inr (Or.inl rfl))
  have known : ∀ order, parties order → order ∈ market.heap.orders := by
    rintro order (rfl | rfl | rests)
    · exact buyWaits.taken
    · exact sellWaits.taken
    · exact sound.shape.registered order rests
  refine ⟨?_, traded.2.keys⟩
  apply sound.of_trading traded.2 known traded.1
  · intro other otherBook otherFound
    by_cases same : other = trade.instrumentId
    · rw [settleTrade_eq found, same,
        Market.withBook_get?_self] at otherFound
      rcases Option.some.inj otherFound with rfl
      exact settleTrade_quantities sound found buyWaits.taken
        sellWaits.taken buyWaits.away sellWaits.away
    · rw [settleTrade_eq found,
        Market.withBook_get?_ne _ _ same] at otherFound
      refine sound.other_book traded.2 known ?_ same otherFound
      intro made member
      rw [List.mem_singleton.mp member]
  · exact settleTrade_fillable sound buyWaits.taken sellWaits.taken
      different quantity

/-- An order still to come waits for the market after the pair as well. -/
theorem Waiting.settleTrade {market : Market} {trade : Trade}
    {book : OrderBook} {order : Order}
    (shape : MarketShape market)
    (found : market.orderBooks.get? trade.instrumentId = some book)
    (buyTaken : buyOrder ∈ market.heap.orders)
    (sellTaken : sellOrder ∈ market.heap.orders)
    (waits : Waiting market order)
    (left : order ≠ buyOrder ∧ order ≠ sellOrder ∨
      ¬ order.IsFilled
        (BatchMatchingEngine.settleTrade trade buyOrder sellOrder
          market).heap) :
    Waiting
      (BatchMatchingEngine.settleTrade trade buyOrder sellOrder market)
      order where
  taken := waits.taken
  away rests := waits.away (settleTrade_rests found rests)
  unfilled := by
    rcases left with ⟨notBuy, notSell⟩ | unfilled
    · rw [Order.IsFilled, settleTrade_remaining_other]
      · exact waits.unfilled
      · exact fun equal =>
          notBuy (shape.eq_of_orderId_eq waits.taken buyTaken equal)
      · exact fun equal =>
          notSell (shape.eq_of_orderId_eq waits.taken sellTaken equal)
    · exact unfilled

/-- A pair which trades keeps the batch sound. -/
theorem BatchSound.pair {trade : Trade} {instrumentId : String}
    (batch : BatchSound
      (buyOrder :: buyOrders ++ (sellOrder :: sellOrders ++ rest))
      context)
    (listed : context.market.orderBooks.Contains instrumentId)
    (buy : buyOrder.side = .buy ∧ buyOrder.instrumentId = instrumentId)
    (sell : sellOrder.side = .sell ∧
      sellOrder.instrumentId = instrumentId)
    (crosses : Crosses buyOrder sellOrder)
    (created :
      pairTrade buyOrder sellOrder context.market = .ok trade) :
    BatchSound
        (afterPair buyOrder sellOrder buyOrders sellOrders rest
          (BatchMatchingEngine.settleTrade trade buyOrder sellOrder
            context.market).heap)
        (BatchMatchingEngine.recordTrade trade buyOrder sellOrder
          context) ∧
      (BatchMatchingEngine.recordTrade trade buyOrder sellOrder
        context).market.orderBooks.Contains instrumentId := by
  have buyWaits := batch.waiting buyOrder (by simp)
  have sellWaits := batch.waiting sellOrder (by simp)
  have different := batch.apart buy.1 sell.1
  have quantity := pairTrade_quantity crosses created
  rcases crosses with ⟨bid, ask, bidPriced, askPriced, inside⟩
  have between :=
    (createTrade_between buy.1 sell.1 (sell.2.trans buy.2.symm)
      bidPriced askPriced inside created).1
  rcases (OrderedDict.contains_iff_exists _ _).mp listed with ⟨book, found⟩
  rw [← buy.2, ← between.buyInstrument] at found
  have settled := settleTrade_sound batch.sound found buyWaits sellWaits
    between different quantity
  constructor
  · constructor
    · exact settled.1
    · intro order member
      exact (batch.waiting order
          ((afterPair_sublist _).subset member)).settleTrade
        batch.sound.shape found buyWaits.taken sellWaits.taken
        (mem_afterPair batch.distinct member)
    · exact batch.distinct.sublist (afterPair_sublist _)
  · rw [OrderedDict.Contains, recordTrade_market, settled.2]
    exact listed

end Pair

/-! ## Orders which are left to the book -/

section Arrival

variable {market after : Market} {order other : Order}
  {trades : List Trade}

/-- An order still to come takes no part in the trades of another one. -/
theorem Waiting.outside (waits : Waiting market other)
    (different : other ≠ order) : ¬ AddParties market order other := by
  rintro (equal | rests)
  · exact different equal
  · exact waits.away rests

theorem Waiting.remaining_eq (waits : Waiting market other)
    (shape : MarketShape market)
    (trading : Trading (AddParties market order) market trades after)
    (taken : order ∈ market.heap.orders) (different : other ≠ order) :
    after.heap.remaining other = market.heap.remaining other := by
  apply trading.remaining_of_not_party shape _ waits.taken
    (waits.outside different)
  rintro candidate (rfl | rests)
  · exact taken
  · exact shape.registered candidate rests

/-- An order still to come waits for the market after another one. -/
theorem Waiting.of_trading (waits : Waiting market other)
    (shape : MarketShape market)
    (trading : Trading (AddParties market order) market trades after)
    (taken : order ∈ market.heap.orders) (different : other ≠ order) :
    Waiting after other where
  taken := trading.orders ▸ waits.taken
  away rests := waits.outside different (trading.rests other rests)
  unfilled := by
    rw [Order.IsFilled,
      waits.remaining_eq shape trading taken different]
    exact waits.unfilled

end Arrival

/-- An order left to the book is added to it, without an exception. -/
theorem addOrderToBook_sound {order : Order} {rest : List Order}
    {context : BatchContext}
    (batch : BatchSound (order :: rest) context)
    (listed : context.market.orderBooks.Contains order.instrumentId) :
    Ends (BatchMatchingEngine.addOrderToBook order.instrumentId order)
      context
      (fun _ reached =>
        BatchSound rest reached ∧
          reached.market.orderBooks.keys =
            context.market.orderBooks.keys)
      (fun _ _ => False) := by
  have waits := batch.waiting order List.mem_cons_self
  rcases onBook_addOrder_sound batch.sound listed waits.taken waits.away with
    ⟨trades, after, evaluates, sound, trading⟩
  have inBatch : BatchContext.onMarket
      (Market.onBook order.instrumentId (OrderBook.addOrder order))
      context = .ok trades { context with market := after } :=
    zoom_ok evaluates
  rw [BatchMatchingEngine.addOrderToBook]
  apply Ends.bind_ok inBatch
  rw [ends_modify]
  refine ⟨⟨sound, ?_, (List.nodup_cons.mp batch.distinct).2⟩,
    trading.keys⟩
  intro other member
  refine (batch.waiting other
    (List.mem_cons_of_mem _ member)).of_trading batch.sound.shape trading
      waits.taken ?_
  rintro rfl
  exact (List.nodup_cons.mp batch.distinct).1 member

/-- What holds while the orders left to one book are added. -/
def StillToAdd (instrumentId : String) (rest orders : List Order)
    (context : BatchContext) : Prop :=
  BatchSound (orders ++ rest) context ∧
    context.market.orderBooks.Contains instrumentId ∧
    ∀ order ∈ orders, order.instrumentId = instrumentId

/-- All the orders left to one book are added to it. -/
theorem addOrdersToBook_sound {instrumentId : String}
    {orders rest : List Order} {context : BatchContext}
    (batch : BatchSound (orders ++ rest) context)
    (listed : context.market.orderBooks.Contains instrumentId)
    (inside : ∀ order ∈ orders, order.instrumentId = instrumentId) :
    Ends (BatchMatchingEngine.addOrdersToBook instrumentId orders)
      context
      (fun _ reached => BatchSound rest reached)
      (fun _ _ => False) := by
  have loop : Ends
      (BatchMatchingEngine.addOrdersToBook instrumentId orders) context
      (fun _ reached => StillToAdd instrumentId rest [] reached)
      (fun _ _ => False) := by
    refine Ends.forM (StillToAdd instrumentId rest) ?_ orders
      ⟨batch, listed, inside⟩
    rintro order later reached ⟨sofar, stillListed, instruments⟩
    rcases instruments order List.mem_cons_self with rfl
    refine (addOrderToBook_sound sofar stillListed).mono ?_ ?_
    · rintro _ next ⟨sound, keys⟩
      refine ⟨sound, ?_, fun other member =>
        instruments other (List.mem_cons_of_mem _ member)⟩
      rw [OrderedDict.Contains, keys]
      exact stillListed
    · exact fun _ _ impossible => impossible
  exact loop.mono (fun _ _ facts => facts.1)
    (fun _ _ impossible => impossible)

/-! ## The whole batch -/

/-- The orders of the two sides, sorted, are those collected. -/
theorem sides_perm (draw : String → ℚ) (orders : List Order) :
    orders.Perm
      (BatchMatchingEngine.randomizeSamePriceOrders draw true
          (orders.filter fun order => order.side = .buy) ++
        BatchMatchingEngine.randomizeSamePriceOrders draw false
          (orders.filter fun order => order.side = .sell)) := by
  have selling :
      (orders.filter fun order => order.side = .sell) =
        orders.filter fun order => !decide (order.side = .buy) := by
    apply List.filter_congr
    intro order _
    cases order.side <;> rfl
  have split : orders.Perm
      ((orders.filter fun order => order.side = .buy) ++
        orders.filter fun order => order.side = .sell) := by
    rw [selling]
    exact (List.filter_append_perm _ orders).symm
  exact split.trans
    ((List.perm_insertionSort _ _).symm.append
      (List.perm_insertionSort _ _).symm)

theorem matchInstrument_sound (draw : String → ℚ)
    {collected : String × List Order} {rest : List Order}
    {context : BatchContext}
    (batch : BatchSound (collected.2 ++ rest) context)
    (inside : ∀ order ∈ collected.2,
      order.instrumentId = collected.1) :
    Ends (BatchMatchingEngine.matchInstrument draw collected) context
      (fun _ reached => BatchSound rest reached)
      (fun _ _ => False) := by
  rw [BatchMatchingEngine.matchInstrument, ends_get_bind]
  by_cases listed : context.market.orderBooks.Contains collected.1
  · simp only [if_pos listed]
    have sorted := @Collected.sorted (fun _ => True) _ _
      (fun order member => ⟨trivial, inside order member⟩) draw
    have start := batch.perm
      ((sides_perm draw collected.2).append_right rest)
    rw [List.append_assoc] at start
    have pairing := pairOrders_ends
      (fun buyOrders sellOrders reached =>
        BatchSound (buyOrders ++ (sellOrders ++ rest)) reached ∧
          Collected (fun _ => True) collected.1 .buy buyOrders ∧
          Collected (fun _ => True) collected.1 .sell sellOrders ∧
          reached.market.orderBooks.Contains collected.1)
      (by
        rintro buyOrder _ sellOrder _ reached ⟨sofar, buys, sells, _⟩
        exact sofar.apart (buys buyOrder List.mem_cons_self).2.1
          (sells sellOrder List.mem_cons_self).2.1)
      (by
        rintro buyOrder buyOrders sellOrder sellOrders reached trade
          ⟨sofar, buys, sells, stillListed⟩ crosses created
        have step := sofar.pair stillListed
          (buys buyOrder List.mem_cons_self).2
          (sells sellOrder List.mem_cons_self).2 crosses created
        exact ⟨step.1, buys.subset (unlessFilled_subset _ _ _),
          sells.subset (unlessFilled_subset _ _ _), step.2⟩)
      _ _ _ context ⟨start, sorted true .buy, sorted false .sell, listed⟩
      (Nat.lt_succ_self _)
    apply Ends.bind (pairing.mono (fun _ _ facts => facts) ?_) ?_
    · rintro exception reached
        ⟨buyOrder, _, sellOrder, _, ⟨sofar, _⟩, crosses, raised⟩
      rcases sofar.exists_pairTrade crosses with ⟨trade, created⟩
      rw [created] at raised
      cases raised
    · rintro left reached ⟨⟨sofar, buys, sells, stillListed⟩, _⟩
      rw [← List.append_assoc] at sofar
      apply addOrdersToBook_sound sofar stillListed
      intro order member
      rcases List.mem_append.mp member with inBuys | inSells
      · exact (buys order inBuys).2.2
      · exact (sells order inSells).2.2
  · simp only [if_neg listed]
    exact batch.subset (List.sublist_append_right _ _)

/-- All the collected orders, instrument by instrument. -/
def ordersOf (entries : List (String × List Order)) : List Order :=
  entries.flatMap Prod.snd

/-- What holds while the collected orders are matched. -/
def StillToMatch (entries : List (String × List Order))
    (context : BatchContext) : Prop :=
  BatchSound (ordersOf entries) context ∧
    ∀ collected ∈ entries, ∀ order ∈ collected.2,
      order.instrumentId = collected.1

/-- A batch of waiting orders never raises. -/
theorem runBatch_sound (draw : String → ℚ) {pending : PendingOrders}
    {context : BatchContext}
    (batch : BatchSound (ordersOf pending.entries) context)
    (inside : ∀ collected ∈ pending.entries, ∀ order ∈ collected.2,
      order.instrumentId = collected.1) :
    Ends (BatchMatchingEngine.runBatch draw pending) context
      (fun _ reached => MarketSound reached.market)
      (fun _ _ => False) := by
  have loop : Ends
      (BatchMatchingEngine.matchBatchOrders draw pending) context
      (fun _ reached => StillToMatch [] reached)
      (fun _ _ => False) := by
    refine Ends.forM StillToMatch ?_ pending.entries ⟨batch, inside⟩
    rintro collected later reached ⟨sofar, instruments⟩
    refine (matchInstrument_sound draw sofar
      (instruments collected List.mem_cons_self)).mono ?_ ?_
    · intro _ next sound
      exact ⟨sound, fun other member =>
        instruments other (List.mem_cons_of_mem _ member)⟩
    · exact fun _ _ impossible => impossible
  apply loop.bind
  rintro _ matched ⟨sofar, _⟩
  apply (finalizeResults_market pending matched).bind
  intro _ finished equal
  rw [ends_get_bind, ends_pure, equal]
  exact sofar.sound

end InternTradingGame
