import InternTradingGame.Exchange.BatchTruth

/-!
# The results of a batch

The results of an instrument stay as they are while the others are matched.
A sell order records all trades which name it; a buy order records those
which are made before the sell orders are added.
-/

namespace InternTradingGame

open Effects Clearing

/-! ## One instrument -/

/-- The result of the order records the trades which name it. -/
def RecordsAll (context : BatchContext) (order : Order) : Prop :=
  context.fillsOf order.instrumentId order.orderId =
    tradesOf order.orderId context.market.heap.trades

/-- The result of the order records less than the order has traded. -/
def RecordsLess (context : BatchContext) (order : Order) : Prop :=
  ((context.fillsOf order.instrumentId order.orderId).map
      Trade.quantity).sum <
    tradedQuantity order.orderId context.market.heap.trades

/-- All orders hear their trades, or some order misses one. -/
structure ToldTruth (meets : Prop) (orders : List Order)
    (context : BatchContext) : Prop where
  hears : ¬ meets → ∀ order ∈ orders, RecordsAll context order
  misses : meets → ∃ order ∈ orders, RecordsLess context order

theorem tradesOf_eq_nil_iff {orderId : String} {trades : List Trade} :
    tradesOf orderId trades = [] ↔ tradedQuantity orderId trades = 0 := by
  constructor
  · intro none
    show ((tradesOf orderId trades).map Trade.quantity).sum = 0
    rw [none]
    rfl
  · intro zero
    by_contra some_
    apply zero.not_gt
    apply List.sum_pos
    · intro quantity member
      rcases List.mem_map.mp member with ⟨trade, _, rfl⟩
      exact trade.quantity_positive
    · exact fun none => some_ (List.map_eq_nil_iff.mp none)

section OneInstrument

variable {instrumentId : String} {known : String → String → Prop}
  {start paired bought served after : BookState} {queues : BatchQueues}
  {context reached : BatchContext} {early sold : List Trade}
  {order : Order} {orders : List Order}

namespace Staged

/-- What is sold to an order while the sell orders are added. -/
theorem filledSince_eq
    (staged : Staged instrumentId known start queues context paired bought
      served after early sold reached) (order : Order) :
    filledSince served.heap after.heap order =
      tradedQuantity order.orderId sold := by
  rw [filledSince, staged.accounts, sub_sub_cancel]

theorem trades_eq (has : HasBook instrumentId context start)
    (staged : Staged instrumentId known start queues context paired bought
      served after early sold reached)
    (new : tradesOf order.orderId context.market.heap.trades = []) :
    tradesOf order.orderId reached.market.heap.trades =
      tradesOf order.orderId (early ++ sold) := by
  rw [staged.has.heap, staged.recorded, ← has.heap, tradesOf_append, new,
    List.nil_append]

/-- The orders hear all trades unless something is sold to the batch. -/
theorem toldTruth (facts : QueueFacts instrumentId start queues)
    (has : HasBook instrumentId context start)
    (perm : orders.Perm (queues.buys ++ queues.sells))
    (silent : ∀ order ∈ orders,
      context.fillsOf instrumentId order.orderId = [])
    (new : ∀ order ∈ orders,
      tradesOf order.orderId context.market.heap.trades = [])
    (staged : Staged instrumentId known start queues context paired bought
      served after early sold reached) :
    ToldTruth (MeetsItself start.heap start.book orders) orders
      reached := by
  have inside : ∀ order ∈ orders, order.instrumentId = instrumentId :=
    fun order member => (facts.addable order
      (perm.mem_iff.mp member)).instrument.trans facts.named
  constructor
  · intro apart order member
    have trades := staged.trades_eq has (new order member)
    rw [staged.meetsItself_iff facts perm] at apart
    rw [RecordsAll, inside order member, trades]
    rcases List.mem_append.mp (perm.mem_iff.mp member) with buy | sell
    · have unsold : tradesOf order.orderId sold = [] := by
        rw [tradesOf_eq_nil_iff, ← staged.filledSince_eq order]
        by_contra some_
        refine apart ⟨order, buy, lt_of_le_of_ne ?_ (Ne.symm some_)⟩
        rw [staged.filledSince_eq order]
        apply List.sum_nonneg
        intro quantity inList
        rcases List.mem_map.mp inList with ⟨trade, _, rfl⟩
        exact trade.quantity_positive.le
      rw [staged.buyFills order buy, silent order member, tradesOf_append,
        unsold, List.append_nil, List.nil_append]
    · rw [staged.sellFills order sell, silent order member,
        List.nil_append]
  · intro meets
    rcases (staged.meetsItself_iff facts perm).mp meets with
      ⟨order, buy, touched⟩
    have member := perm.mem_iff.mpr (List.mem_append_left _ buy)
    refine ⟨order, member, ?_⟩
    have quantity : tradedQuantity order.orderId
        reached.market.heap.trades =
          tradedQuantity order.orderId (early ++ sold) :=
      congrArg (fun trades => (trades.map Trade.quantity).sum)
        (staged.trades_eq has (new order member))
    rw [RecordsLess, inside order member, quantity, staged.buyFills order buy,
      silent order member, List.nil_append, tradedQuantity_append]
    rw [staged.filledSince_eq] at touched
    exact lt_add_of_pos_right _ touched

end Staged

end OneInstrument

/-! ## One instrument after another -/

/-- The orders of an instrument meet each other in its book. -/
def MeetsAt (market : Market) (collected : String × List Order) : Prop :=
  ∃ book, market.orderBooks.get? collected.1 = some book ∧
    MeetsItself market.heap book collected.2

instance (market : Market) (collected : String × List Order) :
    Decidable (MeetsAt market collected) :=
  inferInstanceAs
    (Decidable (∃ book ∈ market.orderBooks.get? collected.1, _))

/-- The places at which results may be stored. -/
def PlaceOf (pending : PendingOrders) (instrumentId orderId : String) :
    Prop :=
  ∃ order ∈ ordersOf pending.entries,
    order.instrumentId = instrumentId ∧ order.orderId = orderId

/-- Some instruments have been matched, and their orders have been told. -/
structure TruthSofar (market : Market) (pending : PendingOrders)
    (done : List (String × List Order)) (context : BatchContext) :
    Prop where
  filed : context.Filed (PlaceOf pending)
  told : ∀ collected ∈ done,
    ToldTruth (MeetsAt market collected) collected.2 context

section Instruments

variable {market : Market} {pending : PendingOrders}
  {context reached : BatchContext} {instrumentId : String}
  {order : Order} {heap other : Heap} {book : OrderBook}
  {orders : List Order}

/-- Only what rests in the book matters. -/
theorem MeetsItself.congr
    (same : ∀ order ∈ book.resting,
      heap.remaining order = other.remaining order) :
    MeetsItself heap book orders ↔ MeetsItself other book orders := by
  have onSide : ∀ side, ∀ order ∈ book.restingOn side,
      heap.remaining order = other.remaining order :=
    fun side order member => same order (OrderBook.mem_resting_of_mem member)
  have demand : ∀ price,
      demandAt Order.limit heap.remaining (book.restingOn .buy) price =
        demandAt Order.limit other.remaining (book.restingOn .buy) price :=
    fun _ => totalOf_congr (onSide .buy)
  have supply : ∀ price,
      supplyAt Order.limit heap.remaining (book.restingOn .sell) price =
        supplyAt Order.limit other.remaining (book.restingOn .sell) price :=
    fun _ => totalOf_congr (onSide .sell)
  simp only [MeetsItself, demand, supply]

/-- A trade which names an order is a trade of its instrument. -/
theorem MarketSound.instrument_of_names (sound : MarketSound market)
    (taken : order ∈ market.heap.orders) {trade : Trade}
    (recorded : trade ∈ market.heap.trades)
    (names : trade.Names order.orderId) :
    trade.instrumentId = order.instrumentId := by
  rcases sound.between trade recorded with
    ⟨buy, buyTaken, sell, sellTaken, between⟩
  rcases (between.names_iff _).mp names with isBuy | isSell
  · rw [← sound.shape.eq_of_orderId_eq buyTaken taken isBuy]
    exact between.buyInstrument
  · rw [← sound.shape.eq_of_orderId_eq sellTaken taken isSell]
    exact between.sellInstrument

/-- No trade names an order which has all it wants. -/
theorem MarketSound.tradesOf_untraded (sound : MarketSound market)
    (taken : order ∈ market.heap.orders)
    (unfilled : market.heap.remaining order = order.quantity) :
    tradesOf order.orderId market.heap.trades = [] := by
  rw [tradesOf_eq_nil_iff, sound.accounted order taken, unfilled, sub_self]

/-- The trades of an order are not made at other instruments. -/
theorem tradesOf_touched {ids : Set String}
    (sound : MarketSound reached.market)
    (touched : BatchContext.Touched ids instrumentId context reached)
    (taken : order ∈ reached.market.heap.orders)
    (different : order.instrumentId ≠ instrumentId) :
    tradesOf order.orderId reached.market.heap.trades =
      tradesOf order.orderId context.market.heap.trades := by
  rcases touched.market.heap.trades with ⟨made, recorded, inside⟩
  have none : tradesOf order.orderId made = [] := by
    apply tradesOf_eq_nil
    intro trade member names
    have inTrades : trade ∈ reached.market.heap.trades := by
      rw [recorded]
      exact List.mem_append_right _ member
    apply different
    rw [← sound.instrument_of_names taken inTrades names]
    exact inside trade member
  rw [recorded, tradesOf_append, none, List.append_nil]

/-- What has been told stays so while another instrument is matched. -/
theorem ToldTruth.touched {meets : Prop} {ids : Set String}
    (told : ToldTruth meets orders context)
    (sound : MarketSound reached.market)
    (touched : BatchContext.Touched ids instrumentId context reached)
    (apart : ∀ order ∈ orders, order ∈ reached.market.heap.orders ∧
      order.instrumentId ≠ instrumentId) :
    ToldTruth meets orders reached := by
  have fills : ∀ order ∈ orders,
      reached.fillsOf order.instrumentId order.orderId =
        context.fillsOf order.instrumentId order.orderId :=
    fun order member => BatchContext.fillsOf_congr
      (touched.results _ (apart order member).2) _
  have trades : ∀ order ∈ orders,
      tradesOf order.orderId reached.market.heap.trades =
        tradesOf order.orderId context.market.heap.trades :=
    fun order member => tradesOf_touched sound touched
      (apart order member).1 (apart order member).2
  constructor
  · intro notMeets order member
    rw [RecordsAll, fills order member, trades order member]
    exact told.hears notMeets order member
  · intro meets
    rcases told.misses meets with ⟨order, member, misses⟩
    refine ⟨order, member, ?_⟩
    have quantity : tradedQuantity order.orderId
        reached.market.heap.trades =
          tradedQuantity order.orderId context.market.heap.trades :=
      congrArg (fun trades => (trades.map Trade.quantity).sum)
        (trades order member)
    rw [RecordsLess, fills order member, quantity]
    exact misses

theorem TruthSofar.start (market : Market) (pending : PendingOrders) :
    TruthSofar market pending [] (BatchContext.start market) where
  filed := by
    intro _ _ _ found
    cases found
  told := by
    intro _ member
    cases member

/-- The orders of one more instrument are told. -/
theorem TruthSofar.next (draw : String → ℚ)
    {done later : List (String × List Order)}
    {collected : String × List Order}
    (ready : BatchReady market pending)
    (split : pending.entries = done ++ collected :: later)
    (still : StillToMatchOf market (collected :: later) context)
    (sofar : TruthSofar market pending done context)
    (evaluated :
      BatchMatchingEngine.matchInstrument draw collected context =
        .ok ⟨⟩ reached)
    (touched : BatchContext.Touched (idsAt context.market collected.1)
      collected.1 context reached) :
    TruthSofar market pending (done ++ [collected]) reached := by
  have member : collected ∈ pending.entries := by
    rw [split]
    exact List.mem_append_right _ List.mem_cons_self
  have asFound := still.found collected List.mem_cons_self
  have inside := ready.inside collected member
  have sound : MarketSound reached.market :=
    ((matchInstrument_sound draw still.batch inside).elim_ok
      evaluated).sound
  have inBatch : ∀ order ∈ collected.2,
      order ∈ ordersOf pending.entries := fun order inOrders =>
    List.mem_flatMap.mpr ⟨collected, member, inOrders⟩
  have places : ∀ order ∈ collected.2,
      PlaceOf pending collected.1 order.orderId := fun order inOrders =>
    ⟨order, inBatch order inOrders, inside order inOrders, rfl⟩
  have silent : ∀ order ∈ collected.2,
      context.fillsOf collected.1 order.orderId = [] := by
    intro order _
    rw [BatchContext.fillsOf, BatchContext.resultOf, asFound.results]
    rfl
  have new : ∀ order ∈ collected.2,
      tradesOf order.orderId context.market.heap.trades = [] := by
    intro order inOrders
    have taken := (still.batch.waiting order
      (List.mem_append_left _ inOrders)).taken
    apply still.batch.sound.tradesOf_untraded taken
    rw [still.orders] at taken
    rw [asFound.remaining order taken (inside order inOrders)]
    exact ready.fresh order (inBatch order inOrders)
  have before : ∀ other ∈ done,
      ToldTruth (MeetsAt market other) other.2 reached := by
    intro other isDone
    apply (sofar.told other isDone).touched sound touched
    intro order inOther
    have otherMember : other ∈ pending.entries := by
      rw [split]
      exact List.mem_append_left _ isDone
    constructor
    · rw [touched.market.heap.orders, still.orders]
      exact (ready.waiting order
        (List.mem_flatMap.mpr ⟨other, otherMember, inOther⟩)).taken
    · rw [ready.inside other otherMember order inOther]
      exact entries_apart split other (List.mem_append_left _ isDone)
  cases found : context.market.orderBooks.get? collected.1 with
  | none =>
      rw [matchInstrument_unlisted draw found] at evaluated
      rcases EStateM.Result.ok.inj evaluated with ⟨_, rfl⟩
      refine ⟨sofar.filed, List.forall_mem_append.mpr
        ⟨before, List.forall_mem_singleton.mpr ⟨?_, ?_⟩⟩⟩
      · intro _ order inOrders
        rw [RecordsAll, inside order inOrders, silent order inOrders,
          new order inOrders]
      · rintro ⟨book, bookFound, _⟩
        rw [← asFound.book, found] at bookFound
        cases bookFound
  | some book =>
      have turn := still.inTurn ready split found
      have facts := turn.queueFacts draw
      rcases (matchInstrument_staged draw turn ⟨found, rfl⟩ sofar.filed
        places).elim_ok evaluated with
        ⟨paired, bought, served, after, early, sold, staged⟩
      refine ⟨staged.filed, List.forall_mem_append.mpr
        ⟨before, List.forall_mem_singleton.mpr ?_⟩⟩
      have truth := staged.toldTruth facts ⟨found, rfl⟩
        (BatchQueues.ofOrders_perm draw collected.2) silent new
      have sameMeets : MeetsAt market collected ↔
          MeetsItself context.market.heap book collected.2 := by
        rw [MeetsItself.congr (still.resting found), MeetsAt,
          ← asFound.book, found]
        constructor
        · rintro ⟨other, equal, meets⟩
          rcases Option.some.inj equal with rfl
          exact meets
        · exact fun meets => ⟨book, rfl, meets⟩
      exact ⟨fun notMeets => truth.hears (mt sameMeets.mpr notMeets),
        fun meets => truth.misses (sameMeets.mp meets)⟩

end Instruments

/-! ## The final results -/

/-- The result of an order as it is handed out. -/
structure Final (heap : Heap) (orderId : String) (fills : List Trade)
    (result : OrderResult) : Prop where
  named : result.orderId = orderId
  records : result.fills = fills
  remaining : result.remainingQuantity = heap.remainingQuantity orderId
  status : result.status =
    if heap.remainingQuantity orderId = 0 then
      .filled
    else if fills.isEmpty then
      .new
    else
      .partiallyFilled

/-- The results of some orders are final; fills are as they were. -/
structure FinalSofar (known : String → String → Prop)
    (before : BatchContext) (done : List Order) (now : BatchContext) :
    Prop where
  market : now.market = before.market
  filed : now.Filed known
  fills : ∀ instrumentId orderId,
    now.fillsOf instrumentId orderId =
      before.fillsOf instrumentId orderId
  final : ∀ order ∈ done, ∃ result,
    now.resultOf order.instrumentId order.orderId = some result ∧
      Final before.market.heap order.orderId
        (before.fillsOf order.instrumentId order.orderId) result

section Finals

variable {known : String → String → Prop} {before now : BatchContext}
  {done : List Order} {order : Order} {pending : PendingOrders}

/-- One more result is made final. -/
theorem FinalSofar.next (sofar : FinalSofar known before done now)
    (place : known order.instrumentId order.orderId) :
    FinalSofar known before (done ++ [order])
      (BatchMatchingEngine.finalizeResult order.instrumentId order
        now) := by
  have named : (now.getOrCreateResult order.instrumentId order).orderId =
      order.orderId := BatchContext.getOrCreateResult_orderId sofar.filed
  have fills : (now.getOrCreateResult order.instrumentId order).fills =
      before.fillsOf order.instrumentId order.orderId :=
    BatchContext.getOrCreateResult_fills.trans (sofar.fills _ _)
  have stored : ∃ result, result.orderId = order.orderId ∧
      Final before.market.heap order.orderId
        (before.fillsOf order.instrumentId order.orderId) result ∧
      BatchMatchingEngine.finalizeResult order.instrumentId order now =
        now.setResult order.instrumentId result := by
    refine ⟨_, ?_, ⟨?_, ?_, ?_, ?_⟩, rfl⟩
    · exact named
    · exact named
    · exact fills
    · show now.market.heap.remaining order = _
      rw [sofar.market]
      rfl
    · show (if order.IsFilled now.market.heap then OrderStatus.filled
        else if (now.getOrCreateResult order.instrumentId
          order).fills.isEmpty then .new else .partiallyFilled) = _
      rw [fills, sofar.market]
      rfl
  rcases stored with ⟨result, resultNamed, final, equal⟩
  rw [equal]
  have at_ : ∀ instrumentId orderId,
      (now.setResult order.instrumentId result).resultOf instrumentId
          orderId =
        if instrumentId = order.instrumentId ∧ orderId = order.orderId then
          some result
        else
          now.resultOf instrumentId orderId := by
    intro instrumentId orderId
    rw [BatchContext.resultOf_setResult, resultNamed]
  constructor
  · exact sofar.market
  · apply sofar.filed.setResult
    rw [resultNamed]
    exact place
  · intro instrumentId orderId
    rw [BatchContext.fillsOf, at_]
    split_ifs with here
    · rw [here.1, here.2]
      exact final.records
    · exact sofar.fills instrumentId orderId
  · intro other member
    rw [at_]
    split_ifs with here
    · rw [here.1, here.2]
      exact ⟨result, rfl, final⟩
    · rcases List.mem_append.mp member with earlier | last
      · exact sofar.final other earlier
      · rcases List.mem_singleton.mp last with rfl
        exact absurd ⟨rfl, rfl⟩ here

/-- Orders are made final one after another. -/
theorem FinalSofar.all {orders : List Order}
    (sofar : FinalSofar known before done now)
    (places : ∀ order ∈ orders,
      known order.instrumentId order.orderId) :
    FinalSofar known before (done ++ orders)
      (orders.foldl
        (fun context order => BatchMatchingEngine.finalizeResult
          order.instrumentId order context) now) := by
  induction orders generalizing done now with
  | nil =>
      rw [List.append_nil]
      exact sofar
  | cons order rest induction =>
      have next := sofar.next (places order List.mem_cons_self)
      have further := induction next fun other member =>
        places other (List.mem_cons_of_mem _ member)
      rw [List.append_assoc] at further
      exact further

/-- All collected orders get their final results. -/
theorem finalizeResults_final
    (inside : ∀ collected ∈ pending.entries, ∀ order ∈ collected.2,
      order.instrumentId = collected.1)
    (filed : before.Filed (PlaceOf pending)) :
    Ends (BatchMatchingEngine.finalizeResults pending) before
      (fun _ now => FinalSofar (PlaceOf pending) before
        (ordersOf pending.entries) now)
      (fun _ _ => False) := by
  have loop : ∀ entries : List (String × List Order),
      (∀ collected ∈ entries, ∀ order ∈ collected.2,
        order.instrumentId = collected.1 ∧
          PlaceOf pending order.instrumentId order.orderId) →
      ∀ done now, FinalSofar (PlaceOf pending) before done now →
        FinalSofar (PlaceOf pending) before (done ++ ordersOf entries)
          (entries.foldl
            (fun context collected =>
              collected.2.foldl
                (fun context order =>
                  BatchMatchingEngine.finalizeResult collected.1 order
                    context)
                context)
            now) := by
    intro entries
    induction entries with
    | nil =>
        intro _ done now sofar
        rw [ordersOf, List.flatMap_nil, List.append_nil]
        exact sofar
    | cons collected rest induction =>
        intro facts done now sofar
        have own := facts collected List.mem_cons_self
        have same : collected.2.foldl
              (fun context order =>
                BatchMatchingEngine.finalizeResult collected.1 order
                  context) now =
            collected.2.foldl
              (fun context order =>
                BatchMatchingEngine.finalizeResult order.instrumentId
                  order context) now := by
          apply List.foldl_ext
          intro context order member
          rw [(own order member).1]
        have further := induction
          (fun other member =>
            facts other (List.mem_cons_of_mem _ member)) _ _
          (sofar.all fun order member => (own order member).2)
        rw [← same, List.append_assoc] at further
        exact further
  have start : FinalSofar (PlaceOf pending) before [] before :=
    ⟨rfl, filed, fun _ _ => rfl,
      fun _ member => absurd member List.not_mem_nil⟩
  refine loop pending.entries ?_ [] before start
  intro collected member order inOrders
  exact ⟨inside collected member order inOrders, order,
    List.mem_flatMap.mpr ⟨collected, member, inOrders⟩, rfl, rfl⟩

end Finals

/-! ## The whole batch -/

/-- What is filled of an order. -/
def filledOf (heap : Heap) (order : Order) : ℚ :=
  order.quantity - heap.remaining order

/-- A result tells the truth about an order. -/
structure TellsTruth (heap : Heap) (order : Order) (result : OrderResult) :
    Prop where
  names : ∀ trade ∈ result.fills, trade.Names order.orderId
  filled : (result.fills.map Trade.quantity).sum = filledOf heap order
  remaining : result.remainingQuantity = heap.remaining order
  isFilled : result.status = .filled ↔ heap.remaining order = 0
  isPartiallyFilled : result.status = .partiallyFilled ↔
    0 < filledOf heap order ∧ filledOf heap order < order.quantity
  isNew : result.status = .new ↔ filledOf heap order = 0

/-- The order has this result, and no other one. -/
structure OnlyResult (context : BatchContext) (order : Order)
    (result : OrderResult) : Prop where
  stored : context.resultOf order.instrumentId order.orderId = some result
  only : ∀ instrumentId orderId other,
    context.resultOf instrumentId orderId = some other →
      other.orderId = order.orderId →
        instrumentId = order.instrumentId ∧ orderId = order.orderId

/-- The results of a batch tell the truth about its orders. -/
structure BatchTellsTruth (pending : PendingOrders)
    (context : BatchContext) : Prop where
  each : ∀ order ∈ ordersOf pending.entries, ∃ result,
    OnlyResult context order result ∧
      TellsTruth context.market.heap order result
  both : ∀ trade ∈ context.market.heap.trades,
    ∀ buy ∈ ordersOf pending.entries,
      ∀ sell ∈ ordersOf pending.entries, TradeBetween trade buy sell →
        trade ∈ context.fillsOf buy.instrumentId buy.orderId ∧
          trade ∈ context.fillsOf sell.instrumentId sell.orderId

section Whole

variable {market : Market} {pending : PendingOrders}
  {context matched finished : BatchContext} {order : Order}
  {result : OrderResult}

/-- A result which records all trades of its order tells the truth. -/
theorem Final.tellsTruth (sound : MarketSound market)
    (taken : order ∈ market.heap.orders)
    (final : Final market.heap order.orderId
      (tradesOf order.orderId market.heap.trades) result) :
    TellsTruth market.heap order result := by
  have filled : tradedQuantity order.orderId market.heap.trades =
      filledOf market.heap order := sound.accounted order taken
  have bounds := sound.fillable order taken
  have none : (tradesOf order.orderId market.heap.trades).isEmpty = true ↔
      filledOf market.heap order = 0 := by
    rw [List.isEmpty_iff, tradesOf_eq_nil_iff, filled]
  have positive := order.quantity_positive
  have same : market.heap.remainingQuantity order.orderId =
      market.heap.remaining order := rfl
  have status := final.status
  rw [same] at status
  have exactly_ : filledOf market.heap order =
      order.quantity - market.heap.remaining order := rfl
  constructor
  · intro trade member
    rw [final.records] at member
    exact of_decide_eq_true (List.mem_filter.mp member).2
  · rw [final.records]
    exact filled
  · exact final.remaining
  · rw [status]
    split_ifs with whole nothing
    · exact iff_of_true rfl whole
    · exact iff_of_false nofun whole
    · exact iff_of_false nofun whole
  · rw [status]
    split_ifs with whole nothing
    · refine iff_of_false nofun fun part => ?_
      rw [exactly_, whole, sub_zero] at part
      exact lt_irrefl _ part.2
    · refine iff_of_false nofun fun part => ?_
      exact part.1.ne' (none.mp nothing)
    · refine iff_of_true rfl ⟨?_, ?_⟩
      · refine lt_of_le_of_ne ?_ fun zero => nothing (none.mpr zero.symm)
        exact sub_nonneg.mpr bounds.bounded
      · exact sub_lt_self _
          (lt_of_le_of_ne bounds.nonnegative (Ne.symm whole))
  · rw [status]
    split_ifs with whole nothing
    · refine iff_of_false nofun fun zero => ?_
      rw [exactly_, whole, sub_zero] at zero
      exact positive.ne' zero
    · exact iff_of_true rfl (none.mp nothing)
    · exact iff_of_false nofun fun zero => nothing (none.mpr zero)

/-- Every collected order has one result, and it is final. -/
theorem FinalSofar.onlyResult (ready : BatchReady market pending)
    (finals : FinalSofar (PlaceOf pending) matched
      (ordersOf pending.entries) finished)
    (member : order ∈ ordersOf pending.entries) :
    ∃ result, OnlyResult finished order result ∧
      Final matched.market.heap order.orderId
        (matched.fillsOf order.instrumentId order.orderId) result := by
  rcases finals.final order member with ⟨result, stored, final⟩
  refine ⟨result, ⟨stored, ?_⟩, final⟩
  intro instrumentId orderId other found equal
  rcases finals.filed instrumentId orderId other found with
    ⟨named, owner, ownerMember, instrument, sameId⟩
  have sameOrder : owner.orderId = order.orderId :=
    sameId.trans (named.symm.trans equal)
  rcases ready.sound.shape.eq_of_orderId_eq
    (ready.waiting owner ownerMember).taken
    (ready.waiting order member).taken sameOrder with rfl
  exact ⟨instrument.symm, sameId.symm⟩

/-- The finished results tell the truth when no instrument meets itself. -/
theorem TruthSofar.tellsTruth_iff (ready : BatchReady market pending)
    (sound : MarketSound matched.market)
    (orders : matched.market.heap.orders = market.heap.orders)
    (truth : TruthSofar market pending pending.entries matched)
    (finals : FinalSofar (PlaceOf pending) matched
      (ordersOf pending.entries) finished) :
    BatchTellsTruth pending finished ↔
      ∀ collected ∈ pending.entries, ¬ MeetsAt market collected := by
  have taken : ∀ order ∈ ordersOf pending.entries,
      order ∈ matched.market.heap.orders := by
    intro order member
    rw [orders]
    exact (ready.waiting order member).taken
  constructor
  · intro tells collected member meets
    rcases (truth.told collected member).misses meets with
      ⟨order, inOrders, misses⟩
    have inBatch : order ∈ ordersOf pending.entries :=
      List.mem_flatMap.mpr ⟨collected, member, inOrders⟩
    rcases tells.each order inBatch with ⟨result, only, tellsOne⟩
    have fills : result.fills =
        matched.fillsOf order.instrumentId order.orderId := by
      rw [← finals.fills, BatchContext.fillsOf, only.stored]
      rfl
    have filled := tellsOne.filled
    rw [fills, finals.market] at filled
    rw [RecordsLess, filled, sound.accounted order (taken order inBatch)]
      at misses
    exact lt_irrefl _ misses
  · intro apart
    have hears : ∀ order ∈ ordersOf pending.entries,
        RecordsAll matched order := by
      intro order inBatch
      rcases List.mem_flatMap.mp inBatch with
        ⟨collected, member, inOrders⟩
      exact (truth.told collected member).hears (apart collected member)
        order inOrders
    constructor
    · intro order inBatch
      rcases finals.onlyResult ready inBatch with ⟨result, only, final⟩
      refine ⟨result, only, ?_⟩
      rw [hears order inBatch] at final
      rw [finals.market]
      exact final.tellsTruth sound (taken order inBatch)
    · intro trade recorded buy buyMember sell sellMember between
      rw [finals.market] at recorded
      rw [finals.fills, finals.fills, hears buy buyMember,
        hears sell sellMember]
      constructor
      · exact List.mem_filter.mpr ⟨recorded,
          decide_eq_true ((between.names_iff _).mpr (Or.inl rfl))⟩
      · exact List.mem_filter.mpr ⟨recorded,
          decide_eq_true ((between.names_iff _).mpr (Or.inr rfl))⟩

/--
The results of a batch tell the truth about all its orders if and only if
at no instrument a market sell order comes with limit buy orders which the
sell orders reach in the book.
-/
theorem runBatch_tellsTruth_iff (draw : String → ℚ)
    (ready : BatchReady market pending) :
    Ends (BatchMatchingEngine.runBatch draw pending)
      (BatchContext.start market)
      (fun results reached => results = reached.results ∧
        (BatchTellsTruth pending reached ↔
          ∀ collected ∈ pending.entries, ¬ MeetsAt market collected))
      (fun _ _ => False) := by
  have matching := matchBatchOrders_ends draw ready
    (fun done reached => reached.market.heap.orders = market.heap.orders ∧
      TruthSofar market pending done reached)
    ⟨rfl, TruthSofar.start market pending⟩
    fun done collected later context reached split still sofar evaluated
      touched =>
        ⟨touched.market.heap.orders.trans still.orders,
          sofar.2.next draw ready split still evaluated touched⟩
  rw [BatchMatchingEngine.runBatch]
  apply matching.bind
  rintro _ matched ⟨sound, orders, truth⟩
  apply (finalizeResults_final ready.inside truth.filed).bind
  intro _ finished finals
  rw [ends_get_bind, ends_pure]
  exact ⟨rfl, truth.tellsTruth_iff ready sound orders finals⟩

end Whole

/-! ## A limit order and a market order -/

namespace Sample

/-- The batch of an empty book: one limit order, one market order. -/
def soldToBatch : ExchangeVenue :=
  replay VenueCall.execute closedVenue
    [ .checkPhaseTransitions (PhaseState.default .preOpen) fun _ => 0,
      .listInstrument { symbol := "CALL" },
      .submitOrder buyFour,
      .submitOrder marketSell ]

/-- The batch of an empty book with a limit order on each side. -/
def limitBatch : ExchangeVenue :=
  replay VenueCall.execute closedVenue
    [ .checkPhaseTransitions (PhaseState.default .preOpen) fun _ => 0,
      .listInstrument { symbol := "CALL" },
      .submitOrder buyFour,
      .submitOrder sellTen ]

end Sample

/-- Limit orders which are paired with each other are told so. -/
theorem runBatch_tellsTruth_limitBatch :
    Ends
      (BatchMatchingEngine.runBatch (fun _ => 0)
        Sample.limitBatch.pendingOrders)
      (BatchContext.start Sample.limitBatch.market)
      (fun _ reached =>
        BatchTellsTruth Sample.limitBatch.pendingOrders reached)
      (fun _ _ => False) := by
  have sound : VenueSound Sample.limitBatch :=
    VenueSound.of_run (VenueSound.new _ _) (run_replay (by decide +kernel))
      (by decide +kernel)
  have ends := runBatch_tellsTruth_iff (fun _ => 0)
    (sound.ready (by decide +kernel))
  refine ends.mono ?_ fun _ _ raised => raised
  rintro results reached ⟨_, truth⟩
  exact truth.mpr (by decide +kernel)

/--
The market sell order fills the limit buy order, which has joined the book
before it; the result of the buy order says so without any fill.
-/
theorem runBatch_missesTrade :
    ¬ ∀ (draw : String → ℚ) (market : Market) (pending : PendingOrders),
      BatchReady market pending →
      ∀ results reached,
        BatchMatchingEngine.runBatch draw pending
            (BatchContext.start market) = .ok results reached →
          BatchTellsTruth pending reached := by
  intro tells
  let venue := Sample.soldToBatch
  have sound : VenueSound venue :=
    VenueSound.of_run (VenueSound.new _ _) (run_replay (by decide +kernel))
      (by decide +kernel)
  have ready : BatchReady venue.market venue.pendingOrders :=
    sound.ready (by decide +kernel)
  have sold : Ends
      (BatchMatchingEngine.runBatch (fun _ => 0) venue.pendingOrders)
      (BatchContext.start venue.market)
      (fun _ reached => reached.fillsOf "CALL" "BUY" = [] ∧
        reached.market.heap.remaining Sample.buyFour = 0)
      (fun _ _ => False) := by
    rcases (runBatch_sound (fun _ => 0) sound.batch
      ready.inside).exists_ok with ⟨results, reached, evaluated, _⟩
    have final :
        (finalState
          (BatchMatchingEngine.runBatch (fun _ => 0) venue.pendingOrders
            { market := venue.market, results := ∅ })).fillsOf
              "CALL" "BUY" = [] ∧
        (finalState
          (BatchMatchingEngine.runBatch (fun _ => 0) venue.pendingOrders
            { market := venue.market, results := ∅ })).market.heap.remaining
              Sample.buyFour = 0 := by
      decide +kernel
    rw [evaluated, finalState_ok] at final
    exact Ends.of_ok evaluated final
  rcases sold.exists_ok with ⟨results, reached, evaluated, silent, filled⟩
  rcases (tells (fun _ => 0) venue.market venue.pendingOrders ready results
    reached evaluated).each Sample.buyFour (by decide +kernel) with
    ⟨result, only, truth⟩
  have fills : result.fills = [] := by
    rw [← silent, BatchContext.fillsOf]
    show _ = (Option.map _ (reached.resultOf Sample.buyFour.instrumentId
      Sample.buyFour.orderId)).getD []
    rw [only.stored]
    rfl
  have sum := truth.filled
  rw [fills, filledOf, filled] at sum
  exact absurd sum (by decide +kernel)

end InternTradingGame
