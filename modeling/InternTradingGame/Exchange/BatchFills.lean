import InternTradingGame.Exchange.Stages

/-!
# The fills a batch records

A pair records its trade in the results of both orders; an order which is
added to the book records the trades of its own call.  The makers of these
trades record nothing: an order of the batch which rests already does not
hear of the trades which later orders of the batch make with it.
-/

namespace InternTradingGame

open Effects Clearing

/-- The trades of a list which name an order. -/
def tradesOf (orderId : String) (trades : List Trade) : List Trade :=
  trades.filter fun trade => trade.Names orderId

section TradesOf

variable {orderId : String} {trades more : List Trade}

@[simp]
theorem tradesOf_append :
    tradesOf orderId (trades ++ more) =
      tradesOf orderId trades ++ tradesOf orderId more :=
  List.filter_append ..

theorem tradesOf_eq_self (named : ∀ trade ∈ trades, trade.Names orderId) :
    tradesOf orderId trades = trades :=
  List.filter_eq_self.mpr fun trade member =>
    decide_eq_true (named trade member)

theorem tradesOf_eq_nil
    (unnamed : ∀ trade ∈ trades, ¬ trade.Names orderId) :
    tradesOf orderId trades = [] := by
  rw [tradesOf, List.filter_eq_nil_iff]
  intro trade member
  rw [decide_eq_true_eq]
  exact unnamed trade member

end TradesOf

/-! ## The stored results -/

namespace BatchContext

/-- The result which is stored for an order. -/
def resultOf (context : BatchContext) (instrumentId orderId : String) :
    Option OrderResult :=
  ((context.results.get? instrumentId).getD ∅).get? orderId

/-- The trades recorded for an order. -/
def fillsOf (context : BatchContext) (instrumentId orderId : String) :
    List Trade :=
  ((context.resultOf instrumentId orderId).map OrderResult.fills).getD []

/-- Results are stored under their own ids, at known places only. -/
def Filed (known : String → String → Prop) (context : BatchContext) :
    Prop :=
  ∀ instrumentId orderId result,
    context.resultOf instrumentId orderId = some result →
      result.orderId = orderId ∧ known instrumentId orderId

variable {known : String → String → Prop} {context : BatchContext}
  {instrumentId other : String} {order : Order} {result : OrderResult}
  {fills : List Trade}

theorem getOrCreateResult_eq :
    context.getOrCreateResult instrumentId order =
      (context.resultOf instrumentId order.orderId).getD
        { orderId := order.orderId
          status := .new
          fills := []
          remainingQuantity := context.market.heap.remaining order
          errorCode := none
          errorMessage := none } :=
  rfl

theorem getOrCreateResult_fills :
    (context.getOrCreateResult instrumentId order).fills =
      context.fillsOf instrumentId order.orderId := by
  rw [getOrCreateResult_eq, fillsOf]
  cases context.resultOf instrumentId order.orderId with
  | none => rfl
  | some result => rfl

theorem getOrCreateResult_orderId (filed : context.Filed known) :
    (context.getOrCreateResult instrumentId order).orderId =
      order.orderId := by
  rw [getOrCreateResult_eq]
  cases found : context.resultOf instrumentId order.orderId with
  | none => rfl
  | some result => exact (filed _ _ _ found).1

theorem resultOf_setResult (orderId : String) :
    (context.setResult instrumentId result).resultOf other orderId =
      if other = instrumentId ∧ orderId = result.orderId then
        some result
      else
        context.resultOf other orderId := by
  rw [resultOf, setResult, OrderedDict.get?_set]
  by_cases same : other = instrumentId
  · subst same
    rw [if_pos rfl, Option.getD_some, OrderedDict.get?_set]
    simp only [true_and]
    rfl
  · rw [if_neg same, if_neg fun both => same both.1]
    rfl

theorem Filed.setResult (filed : context.Filed known)
    (place : known instrumentId result.orderId) :
    (context.setResult instrumentId result).Filed known := by
  intro other orderId stored found
  rw [resultOf_setResult] at found
  split_ifs at found with here
  · rcases Option.some.inj found with rfl
    rw [here.1, here.2]
    exact ⟨rfl, place⟩
  · exact filed other orderId stored found

theorem Filed.extendFills (filed : context.Filed known)
    (place : known instrumentId order.orderId) :
    (context.extendFills instrumentId order fills).Filed known := by
  apply filed.setResult
  show known instrumentId
    (context.getOrCreateResult instrumentId order).orderId
  rw [getOrCreateResult_orderId filed]
  exact place

/-- Only the fills of the order itself are extended. -/
theorem fillsOf_extendFills (filed : context.Filed known)
    (orderId : String) :
    (context.extendFills instrumentId order fills).fillsOf instrumentId
        orderId =
      context.fillsOf instrumentId orderId ++
        if orderId = order.orderId then fills else [] := by
  rw [fillsOf, extendFills, resultOf_setResult,
    getOrCreateResult_orderId filed, getOrCreateResult_fills]
  by_cases same : orderId = order.orderId
  · subst same
    rw [if_pos ⟨rfl, rfl⟩, if_pos rfl]
    rfl
  · rw [if_neg fun both => same both.2, if_neg same, List.append_nil]
    rfl

/-- The results are all that counts. -/
theorem Filed.congr {reached : BatchContext}
    (filed : context.Filed known)
    (same : reached.results = context.results) : reached.Filed known := by
  intro instrumentId orderId result found
  apply filed instrumentId orderId result
  rw [resultOf, ← same]
  exact found

theorem fillsOf_congr {reached : BatchContext}
    (same : reached.results.get? instrumentId =
      context.results.get? instrumentId) (orderId : String) :
    reached.fillsOf instrumentId orderId =
      context.fillsOf instrumentId orderId := by
  rw [fillsOf, fillsOf, resultOf, resultOf, same]

end BatchContext

/-! ## Fills grow by what names the order -/

/-- The fills of these orders have grown by the trades which name them. -/
structure Told (instrumentId : String) (known : String → String → Prop)
    (orders : List Order) (before : BatchContext) (made : List Trade)
    (after : BatchContext) : Prop where
  filed : after.Filed known
  grown : ∀ order ∈ orders,
    after.fillsOf instrumentId order.orderId =
      before.fillsOf instrumentId order.orderId ++
        tradesOf order.orderId made
  others : ∀ orderId, orderId ∉ orders.map Order.orderId →
    after.fillsOf instrumentId orderId =
      before.fillsOf instrumentId orderId

section Told

variable {instrumentId : String} {known : String → String → Prop}
  {orders : List Order} {before now after : BatchContext}
  {made more : List Trade} {order : Order}

theorem Told.refl (filed : before.Filed known) :
    Told instrumentId known orders before [] before where
  filed := filed
  grown := fun _ _ => (List.append_nil _).symm
  others := fun _ _ => rfl

theorem Told.trans (first : Told instrumentId known orders before made now)
    (second : Told instrumentId known orders now more after) :
    Told instrumentId known orders before (made ++ more) after where
  filed := second.filed
  grown := by
    intro order member
    rw [second.grown order member, first.grown order member,
      tradesOf_append, List.append_assoc]
  others := by
    intro orderId outside
    rw [second.others orderId outside, first.others orderId outside]

/-- One order records trades of its own. -/
theorem Told.extend (filed : before.Filed known)
    (place : known instrumentId order.orderId) (member : order ∈ orders)
    (named : ∀ trade ∈ more, trade.Names order.orderId)
    (unnamed : ∀ trade ∈ more, ∀ other ∈ orders, other ≠ order →
      ¬ trade.Names other.orderId) :
    Told instrumentId known orders before more
      (before.extendFills instrumentId order more) where
  filed := filed.extendFills place
  grown := by
    intro other otherMember
    rw [BatchContext.fillsOf_extendFills filed]
    congr 1
    by_cases same : other = order
    · rw [same, if_pos rfl, tradesOf_eq_self named]
    · have none := fun trade inMore =>
        unnamed trade inMore other otherMember same
      rw [tradesOf_eq_nil none]
      by_cases equal : other.orderId = order.orderId
      · rw [if_pos equal]
        cases more with
        | nil => rfl
        | cons trade rest =>
            have names := named trade List.mem_cons_self
            rw [← equal] at names
            exact absurd names (none trade List.mem_cons_self)
      · exact if_neg equal
  others := by
    intro orderId outside
    rw [BatchContext.fillsOf_extendFills filed, if_neg, List.append_nil]
    rintro rfl
    exact outside (List.mem_map_of_mem member)

/-- Only the results count. -/
theorem Told.congr {start : BatchContext}
    (told : Told instrumentId known orders before made after)
    (same : start.results = before.results) :
    Told instrumentId known orders start made after where
  filed := told.filed
  grown := by
    intro order member
    rw [told.grown order member,
      BatchContext.fillsOf_congr (congrArg (·.get? instrumentId) same)]
  others := by
    intro orderId outside
    rw [told.others orderId outside,
      BatchContext.fillsOf_congr (congrArg (·.get? instrumentId) same)]

end Told

/-! ## Pairs tell their trades -/

section Pairs

variable {instrumentId : String} {known : String → String → Prop}
  {buys sells : List Order} {context : BatchContext}

/-- A pair is recorded in the results of both orders. -/
theorem recordTrade_told {trade : Trade} {buyOrder sellOrder : Order}
    (distinct : ((buys ++ sells).map Order.orderId).Nodup)
    (filed : context.Filed known)
    (places : ∀ order ∈ buys ++ sells, known instrumentId order.orderId)
    (buyMember : buyOrder ∈ buys) (sellMember : sellOrder ∈ sells)
    (between : TradeBetween trade buyOrder sellOrder)
    (inside : trade.instrumentId = instrumentId) :
    Told instrumentId known (buys ++ sells) context [trade]
      (BatchMatchingEngine.recordTrade trade buyOrder sellOrder
        context) := by
  have buyPlace := places buyOrder (List.mem_append_left _ buyMember)
  have sellPlace := places sellOrder (List.mem_append_right _ sellMember)
  have different := orderId_apart distinct buyMember sellMember
  rw [BatchMatchingEngine.recordTrade, inside]
  have settled : BatchContext.Filed known
      { context with
        market := BatchMatchingEngine.settleTrade trade buyOrder sellOrder
          context.market } := filed.congr rfl
  have bought : BatchContext.Filed known
      (BatchContext.extendFills _ instrumentId buyOrder [trade]) :=
    settled.extendFills buyPlace
  have fills : ∀ orderId,
      (((BatchContext.mk
          (BatchMatchingEngine.settleTrade trade buyOrder sellOrder
            context.market) context.results).extendFills instrumentId
          buyOrder [trade]).extendFills instrumentId sellOrder
          [trade]).fillsOf instrumentId orderId =
        context.fillsOf instrumentId orderId ++
          tradesOf orderId [trade] := by
    intro orderId
    rw [BatchContext.fillsOf_extendFills bought,
      BatchContext.fillsOf_extendFills settled, List.append_assoc]
    congr 1
    by_cases isBuy : orderId = buyOrder.orderId
    · rw [if_pos isBuy, if_neg fun isSell =>
        different (isBuy.symm.trans isSell)]
      exact (tradesOf_eq_self fun other member => by
        rw [List.mem_singleton.mp member, between.names_iff]
        exact Or.inl isBuy.symm).symm
    · rw [if_neg isBuy, List.nil_append]
      by_cases isSell : orderId = sellOrder.orderId
      · rw [if_pos isSell]
        exact (tradesOf_eq_self fun other member => by
          rw [List.mem_singleton.mp member, between.names_iff]
          exact Or.inr isSell.symm).symm
      · rw [if_neg isSell]
        refine (tradesOf_eq_nil fun other member => ?_).symm
        rw [List.mem_singleton.mp member, between.names_iff, not_or]
        exact ⟨Ne.symm isBuy, Ne.symm isSell⟩
  constructor
  · exact bought.extendFills sellPlace
  · exact fun order _ => fills order.orderId
  · intro orderId outside
    refine (fills orderId).trans ?_
    rw [tradesOf_eq_nil, List.append_nil]
    intro other member
    rw [List.mem_singleton.mp member, between.names_iff]
    rintro (rfl | rfl)
    · exact outside
        (List.mem_map_of_mem (List.mem_append_left _ buyMember))
    · exact outside
        (List.mem_map_of_mem (List.mem_append_right _ sellMember))

/-- The pairing loop tells all its trades to both sides. -/
theorem pairOrders_told
    (distinct : ((buys ++ sells).map Order.orderId).Nodup)
    (isBuy : ∀ order ∈ buys, order.side = .buy)
    (isSell : ∀ order ∈ sells, order.side = .sell)
    (instrument : ∀ order ∈ buys ++ sells,
      order.instrumentId = instrumentId)
    (filed : context.Filed known)
    (places : ∀ order ∈ buys ++ sells, known instrumentId order.orderId)
    {iterations : Nat}
    (enough : buys.length + sells.length < iterations) :
    Ends (BatchMatchingEngine.pairOrders iterations buys sells) context
      (fun _ reached => ∃ made,
        reached.market.heap.trades =
            context.market.heap.trades ++ made ∧
          Told instrumentId known (buys ++ sells) context made reached)
      (fun _ _ => True) := by
  have loop := pairOrders_ends
    (fun buyQueue sellQueue reached =>
      (buyQueue ⊆ buys ∧ sellQueue ⊆ sells) ∧
        ∃ made,
          reached.market.heap.trades =
              context.market.heap.trades ++ made ∧
            Told instrumentId known (buys ++ sells) context made reached)
    (by
      rintro buyOrder _ sellOrder _ reached ⟨⟨buyQueue, sellQueue⟩, _⟩
      exact orderId_apart distinct (buyQueue List.mem_cons_self)
        (sellQueue List.mem_cons_self))
    (by
      rintro buyOrder buyOrders sellOrder sellOrders reached trade
        ⟨⟨buyQueue, sellQueue⟩, made, recorded, told⟩ crosses created
      have buyMember := buyQueue List.mem_cons_self
      have sellMember := sellQueue List.mem_cons_self
      have buyInside := instrument buyOrder
        (List.mem_append_left _ buyMember)
      have sellInside := instrument sellOrder
        (List.mem_append_right _ sellMember)
      rcases crosses with ⟨bid, ask, bidPriced, askPriced, inside⟩
      have between := (createTrade_between (isBuy buyOrder buyMember)
        (isSell sellOrder sellMember) (sellInside.trans buyInside.symm)
        bidPriced askPriced inside created).1
      refine ⟨⟨?_, ?_⟩, made ++ [trade], ?_, ?_⟩
      · exact fun order member =>
          buyQueue (unlessFilled_subset _ _ _ member)
      · exact fun order member =>
          sellQueue (unlessFilled_subset _ _ _ member)
      · rw [recordTrade_market, ← List.append_assoc, ← recorded]
        rfl
      · exact told.trans (recordTrade_told distinct told.filed places
          buyMember sellMember between
          (between.buyInstrument.trans buyInside)))
    iterations buys sells context
    ⟨⟨List.Subset.refl _, List.Subset.refl _⟩, [],
      (List.append_nil _).symm, Told.refl filed⟩ enough
  exact loop.mono (fun _ _ facts => facts.1.2) fun _ _ _ => trivial

end Pairs

/-! ## Takers tell their trades -/

section Takers

variable {P : Type*} [LinearOrder P] {stage : Stage P}
  {instrumentId : String} {known : String → String → Prop}
  {context : BatchContext}

/-- All takers have been added and have recorded their trades. -/
structure TakersTold (stage : Stage P) (instrumentId : String)
    (known : String → String → Prop) (before : BatchContext)
    (done later : List Order) (now : BatchContext) (state : BookState)
    (made : List Trade) : Prop where
  has : HasBook instrumentId now state
  reached : stage.Reached done later state
  recorded : state.heap.trades = stage.start.heap.trades ++ made
  accounts : ∀ orderId, state.heap.remainingQuantity orderId =
    stage.start.heap.remainingQuantity orderId -
      tradedQuantity orderId made
  parties : ∀ trade ∈ made, ∃ taker ∈ stage.takers,
    stage.MadeBy taker trade
  told : Told instrumentId known stage.takers before made now

/-- The takers of a stage are added, whatever kind of orders they are. -/
theorem addOrdersToBook_told (sides : stage.Sides)
    (has : HasBook instrumentId context stage.start)
    (filed : context.Filed known)
    (places : ∀ taker ∈ stage.takers, known instrumentId taker.orderId) :
    Ends
      (BatchMatchingEngine.addOrdersToBook instrumentId stage.takers)
      context
      (fun _ reached => ∃ state made,
        TakersTold stage instrumentId known context stage.takers []
          reached state made)
      (fun _ _ => False) := by
  have loop : Ends
      (BatchMatchingEngine.addOrdersToBook instrumentId stage.takers)
      context
      (fun _ reached => ∃ done state made, stage.takers = done ++ [] ∧
        TakersTold stage instrumentId known context done [] reached state
          made)
      (fun _ _ => False) := by
    refine Ends.forM
      (fun later reached => ∃ done state made,
        stage.takers = done ++ later ∧
          TakersTold stage instrumentId known context done later reached
            state made) ?_ _ ?_
    · rintro order later reached ⟨done, state, made, split, sofar⟩
      have taker : order ∈ stage.takers := by
        rw [split]
        exact List.mem_append_right _ List.mem_cons_self
      rcases sofar.reached.add sides split with
        ⟨trades, after, evaluates, further, recorded, accounts, madeBy⟩
      apply Ends.of_ok (addOrderToBook_eq sofar.has evaluates)
      refine ⟨done ++ [order], after, made ++ trades, ?_, ?_⟩
      · rw [split, List.append_assoc]
        rfl
      constructor
      · exact ⟨Market.withBook_get?_self .., rfl⟩
      · exact further
      · rw [recorded, sofar.recorded, List.append_assoc]
      · intro orderId
        rw [accounts, sofar.accounts, tradedQuantity_append, sub_sub]
      · intro trade member
        rcases List.mem_append.mp member with early | late
        · exact sofar.parties trade early
        · exact ⟨order, taker, madeBy trade late⟩
      · refine sofar.told.trans (Told.congr (Told.extend
          (sofar.told.filed.congr rfl) (places order taker) taker ?_ ?_)
          rfl)
        · intro trade member
          rcases madeBy trade member with ⟨_, _, names⟩
          exact (names _).mpr (Or.inl rfl)
        · intro trade member other otherTaker different
          exact Stage.Reached.unnamed sides taker (madeBy trade member)
            otherTaker different
    · refine ⟨[], stage.start, [], rfl, has, sides.initial, ?_, ?_,
        ?_, Told.refl filed⟩
      · exact (List.append_nil _).symm
      · simp
      · intro trade member
        cases member
  refine loop.mono ?_ fun _ _ impossible => impossible
  rintro _ reached ⟨done, state, made, split, told⟩
  rw [List.append_nil] at split
  exact ⟨state, made, split ▸ told⟩

/-- Who is not a maker records all the trades which name it. -/
theorem TakersTold.fills {done later : List Order} {reached : BatchContext}
    {state : BookState} {made : List Trade} {orderId : String}
    (told : TakersTold stage instrumentId known context done later reached
      state made)
    (apart : ∀ maker ∈ stage.makers, orderId ≠ maker.orderId) :
    reached.fillsOf instrumentId orderId =
      context.fillsOf instrumentId orderId ++ tradesOf orderId made := by
  by_cases taker : orderId ∈ stage.takers.map Order.orderId
  · rcases List.mem_map.mp taker with ⟨order, member, rfl⟩
    exact told.told.grown order member
  · rw [told.told.others orderId taker, tradesOf_eq_nil, List.append_nil]
    intro trade member names
    rcases told.parties trade member with
      ⟨order, isTaker, maker, isMaker, parties⟩
    rcases (parties orderId).mp names with equal | equal
    · exact taker (equal ▸ List.mem_map_of_mem isTaker)
    · exact apart maker isMaker equal.symm

end Takers

end InternTradingGame
