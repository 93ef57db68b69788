import InternTradingGame.OrderBook.Quantities

/-!
# Adding an order

The remainder of a limit order joins the level at its price, behind the
orders which are already there, or opens a level at its place in the sorted
side.  `Joined` says where.  The loop has left nothing on the other side the
order could trade with, so the book stays uncrossed.
-/

namespace InternTradingGame

open Effects

/-! ## The place of an order on its side -/

/-- The level an order joins at a price, which may not be listed yet. -/
structure Joined (side : OrderSide) (price : ℚ)
    (levels before : List PriceLevel) (level : PriceLevel)
    (after : List PriceLevel) : Prop where
  split : levels = before ++ (level.listed ++ after)
  atPrice : level.price = price
  origin : level ∈ levels ∨ level = PriceLevel.new price
  better : ∀ other ∈ before, side.Better other.price price
  worse : ∀ other ∈ after, side.Better price other.price

theorem insertPosition_split {levels : List PriceLevel}
    {side : OrderSide} {price : ℚ} (level : PriceLevel)
    (sorted :
      levels.Pairwise fun near far => side.Better near.price far.price)
    (absent : ∀ other ∈ levels, other.price ≠ price) :
    ∃ before after,
      levels = before ++ after ∧
        levels.insertIdx
            (OrderBook.insertPosition levels side price) level =
          before ++ level :: after ∧
        (∀ other ∈ before, side.Better other.price price) ∧
        ∀ other ∈ after, side.Better price other.price := by
  let position := OrderBook.insertPosition levels side price
  suffices bounds :
      position ≤ levels.length ∧
        (∀ other ∈ levels.take position,
          side.Better other.price price) ∧
        ∀ other ∈ levels.drop position,
          ¬ side.Better other.price price by
    rcases bounds with ⟨bounded, before, after⟩
    refine ⟨levels.take position, levels.drop position,
      (List.take_append_drop _ _).symm,
      Sequences.insertIdx_eq_take_append_drop _ _ bounded, before, ?_⟩
    intro other member
    have different : price ≠ other.price :=
      (absent other (List.mem_of_mem_drop member)).symm
    exact (OrderSide.better_or_better different).resolve_right
      (after other member)
  cases side with
  | buy =>
      have keysSorted :
          (levels.map fun level => -level.price).Pairwise (· ≤ ·) := by
        rw [List.pairwise_map]
        exact sorted.imp fun better => neg_le_neg (le_of_lt better)
      refine ⟨?_, ?_, ?_⟩
      · have bounded :=
          Sequences.bisectLeft_le_length keysSorted (-price)
        rwa [List.length_map] at bounded
      · intro other member
        apply neg_lt_neg_iff.mp
        apply Sequences.lt_of_mem_take_bisectLeft keysSorted
        rw [← List.map_take]
        exact List.mem_map_of_mem member
      · intro other member better
        apply Sequences.not_lt_of_mem_drop_bisectLeft keysSorted
          _ (neg_lt_neg better)
        rw [← List.map_drop]
        exact List.mem_map_of_mem member
  | sell =>
      have keysSorted :
          (levels.map fun level => level.price).Pairwise (· ≤ ·) := by
        rw [List.pairwise_map]
        exact sorted.imp fun better => le_of_lt better
      refine ⟨?_, ?_, ?_⟩
      · have bounded :=
          Sequences.bisectLeft_le_length keysSorted price
        rwa [List.length_map] at bounded
      · intro other member
        apply Sequences.lt_of_mem_take_bisectLeft keysSorted
        rw [← List.map_take]
        exact List.mem_map_of_mem member
      · intro other member better
        apply Sequences.not_lt_of_mem_drop_bisectLeft keysSorted
          _ better
        rw [← List.map_drop]
        exact List.mem_map_of_mem member

theorem insertIntoLevels_joined {instrumentId : String}
    {order : Order} {price : ℚ} {levels : List PriceLevel}
    (heap : Heap)
    (shape : SideShape instrumentId order.side levels) :
    ∃ before level after,
      Joined order.side price levels before level after ∧
        OrderBook.insertIntoLevels levels heap order price =
          before ++ level.addOrder heap order :: after := by
  by_cases present : ∃ level ∈ levels, level.price = price
  · rcases Sequences.exists_first_match (fun level => level.price = price)
        levels present with
      ⟨before, level, after, rfl, missed, atPrice⟩
    have occupied : level.orders ≠ [] :=
      shape.occupied level
        (List.mem_append_right _ List.mem_cons_self)
    have sorted := List.pairwise_append.mp shape.sorted
    refine ⟨before, level, after, ⟨?_, atPrice, ?_, ?_, ?_⟩, ?_⟩
    · rw [PriceLevel.listed_of_occupied occupied,
        List.singleton_append]
    · exact Or.inl (List.mem_append_right _ List.mem_cons_self)
    · intro other member
      rw [← atPrice]
      exact sorted.2.2 other member level List.mem_cons_self
    · intro other member
      rw [← atPrice]
      exact (List.pairwise_cons.mp sorted.2.1).1 other member
    · rw [OrderBook.insertIntoLevels,
        Sequences.updateFirst_append _ _ missed atPrice]
  · have absent : ∀ level ∈ levels, level.price ≠ price := by
      intro level member equal
      exact present ⟨level, member, equal⟩
    rcases insertPosition_split
        ((PriceLevel.new price).addOrder heap order)
        shape.sorted absent with
      ⟨before, after, split, inserted, better, worse⟩
    refine ⟨before, PriceLevel.new price, after,
      ⟨?_, rfl, Or.inr rfl, better, worse⟩, ?_⟩
    · rw [PriceLevel.listed_of_empty rfl, List.nil_append]
      exact split
    · rw [OrderBook.insertIntoLevels,
        (Sequences.updateFirst_eq_none_iff _ _ _).mpr absent]
      exact inserted

namespace Joined

variable {price : ℚ} {levels before after : List PriceLevel}
  {level : PriceLevel} {instrumentId : String}

theorem orders_subset {side : OrderSide}
    (joined : Joined side price levels before level after) {order : Order}
    (member : order ∈ level.orders) : level ∈ levels := by
  rcases joined.origin with listed | rfl
  · exact listed
  · exact absurd member List.not_mem_nil

theorem mem_of_mem {side : OrderSide}
    (joined : Joined side price levels before level after)
    {other : PriceLevel} (member : other ∈ before ++ after) :
    other ∈ levels := by
  rw [joined.split]
  rcases List.mem_append.mp member with inBefore | inAfter
  · exact List.mem_append_left _ inBefore
  · exact List.mem_append_right _ (List.mem_append_right _ inAfter)

/-- The side stays sorted and occupied. -/
theorem shape {order : Order} (heap : Heap)
    (joined : Joined order.side price levels before level after)
    (shape : SideShape instrumentId order.side levels)
    (instrument : order.instrumentId = instrumentId)
    (priced : order.price = some price) :
    SideShape instrumentId order.side
      (before ++ level.addOrder heap order :: after) := by
  have elsewhere : ∀ other ∈ before ++ level.addOrder heap order :: after,
      other = level.addOrder heap order ∨ other ∈ levels := by
    intro other member
    rcases List.mem_append.mp member with inBefore | inRest
    · exact Or.inr (joined.mem_of_mem (List.mem_append_left _ inBefore))
    · rcases List.mem_cons.mp inRest with equal | inAfter
      · exact Or.inl equal
      · exact Or.inr
          (joined.mem_of_mem (List.mem_append_right _ inAfter))
  have orders : ∀ other ∈ (level.addOrder heap order).orders,
      other = order ∨ level ∈ levels ∧ other ∈ level.orders := by
    intro other member
    rcases List.mem_append.mp member with old | new
    · exact Or.inr ⟨joined.orders_subset old, old⟩
    · exact Or.inl (List.mem_singleton.mp new)
  constructor
  · have sorted := shape.sorted
    rw [joined.split] at sorted
    have outer := List.pairwise_append.mp sorted
    have inner := List.pairwise_append.mp outer.2.1
    refine List.pairwise_append.mpr ⟨outer.1, ?_, ?_⟩
    · refine List.pairwise_cons.mpr ⟨?_, inner.2.1⟩
      intro other member
      exact joined.atPrice.symm ▸ joined.worse other member
    · intro near nearMember far farMember
      rcases List.mem_cons.mp farMember with rfl | inAfter
      · exact joined.atPrice.symm ▸ joined.better near nearMember
      · exact outer.2.2 near nearMember far
          (List.mem_append_right _ inAfter)
  · intro other member
    rcases elsewhere other member with rfl | old
    · exact List.append_ne_nil_of_right_ne_nil _ (List.cons_ne_nil _ _)
    · exact shape.occupied other old
  · intro other member candidate inLevel
    rcases elsewhere other member with rfl | old
    · rcases orders candidate inLevel with rfl | ⟨listed, inOld⟩
      · rfl
      · exact shape.ownSide level listed candidate inOld
    · exact shape.ownSide other old candidate inLevel
  · intro other member candidate inLevel
    rcases elsewhere other member with rfl | old
    · rcases orders candidate inLevel with rfl | ⟨listed, inOld⟩
      · rw [priced]
        exact congrArg some joined.atPrice.symm
      · exact shape.ownPrice level listed candidate inOld
    · exact shape.ownPrice other old candidate inLevel
  · intro other member candidate inLevel
    rcases elsewhere other member with rfl | old
    · rcases orders candidate inLevel with rfl | ⟨listed, inOld⟩
      · exact instrument
      · exact shape.ownInstrument level listed candidate inOld
    · exact shape.ownInstrument other old candidate inLevel

end Joined

/-! ## The remainder of an order -/

/-- The state once a limit order has been inserted. -/
def BookState.inserted (state : BookState) (order : Order)
    (price : ℚ) : BookState :=
  { state with
    book :=
      { state.book.setLevels order.side
          (OrderBook.insertIntoLevels (state.book.levels order.side)
            state.heap order price) with
        orderPriceMap := state.book.orderPriceMap.set order.orderId price
        orderIds := insert order.orderId state.book.orderIds } }

/-- The remainder of a limit order rests, that of a market order is lost. -/
def BookState.rest (state : BookState) (order : Order) : BookState :=
  match order.price with
  | none => state
  | some price =>
      if order.IsFilled state.heap then
        state
      else
        state.inserted order price

section Rest

variable {order : Order} {state : BookState} {price : ℚ}

theorem insertOrder_apply (priced : order.price = some price) :
    OrderBook.insertOrder order state =
      .ok ⟨⟩ (state.inserted order price) := by
  simp [OrderBook.insertOrder, priced, BookState.inserted]

theorem rest_apply (trades : List Trade) :
    (do
      if ¬ order.IsFilled state.heap ∧ order.IsLimitOrder then
        OrderBook.insertOrder order
      else
        pure ⟨⟩
      return trades : BookM (List Trade)) state =
      .ok trades (state.rest order) := by
  cases priced : order.price with
  | none =>
      simp [Order.isLimitOrder_iff, priced, BookState.rest]
  | some limit =>
      by_cases filled : order.IsFilled state.heap
      · simp [filled, BookState.rest, priced]
      · simp [filled, BookState.rest, priced, Order.isLimitOrder_iff,
          insertOrder_apply priced]

theorem rest_heap : (state.rest order).heap = state.heap := by
  unfold BookState.rest
  cases order.price with
  | none => rfl
  | some limit =>
      by_cases filled : order.IsFilled state.heap
      · simp [filled]
      · simp [filled, BookState.inserted]

theorem inserted_levels_opposite :
    (state.inserted order price).book.levels order.side.opposite =
      state.book.levels order.side.opposite := by
  simp only [BookState.inserted]
  cases order.side <;> rfl

theorem inserted_levels :
    (state.inserted order price).book.levels order.side =
      OrderBook.insertIntoLevels (state.book.levels order.side)
        state.heap order price := by
  simp only [BookState.inserted]
  cases order.side <;> rfl

/-- An inserted order joins the book. -/
theorem inserted_inserted (shape : BookShape state.book)
    (instrument : order.instrumentId = state.book.instrumentId)
    (priced : order.price = some price) :
    Inserted order price state.book
      (state.inserted order price).book := by
  rcases @insertIntoLevels_joined _ order price _ state.heap
      (shape.side order.side) with
    ⟨before, level, after, joined, levels⟩
  have changed :=
    (@inserted_levels order state price).trans levels
  constructor
  · simp [BookState.inserted]
  · rw [changed]
    exact joined.shape _ (shape.side order.side) instrument priced
  · exact inserted_levels_opposite
  · refine ⟨before.flatMap PriceLevel.orders ++ level.orders,
      after.flatMap PriceLevel.orders, ?_, ?_⟩
    · simp [OrderBook.restingOn, joined.split]
    · simp [OrderBook.restingOn, changed, PriceLevel.addOrder]
  · intro other member
    rw [changed] at member
    rcases List.mem_append.mp member with inBefore | inRest
    · exact Or.inr
        ⟨other, joined.mem_of_mem (List.mem_append_left _ inBefore),
          rfl⟩
    · rcases List.mem_cons.mp inRest with rfl | inAfter
      · exact Or.inl joined.atPrice
      · exact Or.inr
          ⟨other, joined.mem_of_mem (List.mem_append_right _ inAfter),
            rfl⟩
  · simp [BookState.inserted]
  · simp [BookState.inserted]
  · exact priced

/-- The loop ends before its order is filled only at a refused price. -/
theorem MatchingDone.refuses (done : MatchingDone order state)
    (shape : BookShape state.book)
    (unfilled : ¬ order.IsFilled state.heap) :
    ∀ level ∈ state.book.levels order.side.opposite,
      order.Refuses level.price := by
  intro level member
  rcases done with filled | empty | ⟨best, deeper, side, refuses⟩
  · exact absurd filled unfilled
  · rw [empty] at member
    exact absurd member List.not_mem_nil
  · have sorted := (shape.side order.side.opposite).sorted
    rw [side] at sorted member
    rcases List.mem_cons.mp member with rfl | inDeeper
    · exact refuses
    · exact refuses.worse
        ((List.pairwise_cons.mp sorted).1 level inDeeper)

/-- The loop leaves nothing an unfilled limit order could trade with. -/
theorem MatchingDone.apart (done : MatchingDone order state)
    (shape : BookShape state.book)
    (unfilled : ¬ order.IsFilled state.heap)
    (priced : order.price = some price) :
    ∀ level ∈ state.book.levels order.side.opposite,
      order.side.Better level.price price := by
  intro level member
  rcases (order.refuses_iff level.price).mp
      (done.refuses shape unfilled level member) with
    ⟨limit, limitPriced, better⟩
  obtain rfl : limit = price :=
    Option.some.inj (limitPriced.symm.trans priced)
  exact better

theorem rest_cases :
    state.rest order = state ∨
      ∃ limit, order.price = some limit ∧
        ¬ order.IsFilled state.heap ∧
        state.rest order = state.inserted order limit := by
  cases priced : order.price with
  | none => exact Or.inl (by simp [BookState.rest, priced])
  | some limit =>
      by_cases filled : order.IsFilled state.heap
      · exact Or.inl (by simp [BookState.rest, priced, filled])
      · exact Or.inr
          ⟨limit, rfl, filled, by simp [BookState.rest, priced, filled]⟩

/-- Resting the remainder keeps the shape. -/
theorem rest_shape (shape : BookShape state.book)
    (absent : order.orderId ∉ state.book.orderIds)
    (done : MatchingDone order state)
    (instrument : order.instrumentId = state.book.instrumentId) :
    BookShape (state.rest order).book := by
  rcases @rest_cases order state with
    unchanged | ⟨limit, priced, unfilled, inserted⟩
  · rw [unchanged]
    exact shape
  · rw [inserted]
    exact (inserted_inserted shape instrument priced).keeps shape absent
      (done.apart shape unfilled priced)

/-- Whoever rests afterwards rested before or is the order itself. -/
theorem mem_rest_resting (shape : BookShape state.book)
    (instrument : order.instrumentId = state.book.instrumentId)
    {candidate : Order}
    (member : candidate ∈ (state.rest order).book.resting) :
    candidate = order ∨ candidate ∈ state.book.resting := by
  rcases @rest_cases order state with
    unchanged | ⟨limit, priced, _, inserted⟩
  · rw [unchanged] at member
    exact Or.inr member
  · rw [inserted] at member
    exact (inserted_inserted shape instrument priced).mem_changed_iff.mp
      member

theorem rest_instrumentId :
    (state.rest order).book.instrumentId = state.book.instrumentId := by
  rcases @rest_cases order state with unchanged | ⟨limit, _, _, inserted⟩
  · rw [unchanged]
  · rw [inserted]
    simp [BookState.inserted]

/-- Resting the remainder keeps the quantities. -/
theorem rest_quantities (shape : BookShape state.book)
    (quantities : BookQuantities state)
    (fillable : order.Fillable state.heap)
    (instrument : order.instrumentId = state.book.instrumentId) :
    BookQuantities (state.rest order) := by
  rcases @rest_cases order state with
    unchanged | ⟨limit, priced, unfilled, inserted⟩
  · rw [unchanged]
    exact quantities
  · rw [inserted]
    have joins := inserted_inserted shape instrument priced
    constructor
    · intro side level member
      by_cases own : side = order.side
      · subst own
        rcases @insertIntoLevels_joined _ order limit _ state.heap
            (shape.side order.side) with
          ⟨before, joinedLevel, after, joined, levels⟩
        rw [inserted_levels, levels] at member
        rcases List.mem_append.mp member with inBefore | inRest
        · exact quantities.totals _ level
            (joined.mem_of_mem (List.mem_append_left _ inBefore))
        · rcases List.mem_cons.mp inRest with rfl | inAfter
          · have total : LevelTotal state.heap joinedLevel := by
              rcases joined.origin with listed | rfl
              · exact quantities.totals _ joinedLevel listed
              · rfl
            change
              joinedLevel.totalQuantity + state.heap.remaining order =
                ((joinedLevel.orders ++ [order]).map
                  state.heap.remaining).sum
            rw [List.map_append, List.sum_append, total]
            simp
          · exact quantities.totals _ level
              (joined.mem_of_mem (List.mem_append_right _ inAfter))
      · rcases OrderSide.eq_opposite_of_ne own with rfl
        rw [inserted_levels_opposite] at member
        exact quantities.totals _ level member
    · intro candidate member
      rcases joins.mem_changed_iff.mp member with rfl | old
      · exact fillable
      · exact quantities.fillable candidate old
    · intro candidate member
      rcases joins.mem_changed_iff.mp member with rfl | old
      · exact fillable.positive unfilled
      · exact quantities.positive candidate old

end Rest

/-! ## The whole call -/

/-- The two guards of `add_order`. -/
structure Addable (order : Order) (state : BookState) : Prop where
  instrument : order.instrumentId = state.book.instrumentId
  absent : order.orderId ∉ state.book.orderIds

/--
What one trade keeps holds once the order has been matched.  The call
returns the trades made, or raises before or inside the loop.
-/
theorem addOrder_ends {order : Order} {state : BookState}
    (invariant : List Trade → BookState → Prop)
    (shape : BookShape state.book)
    (keeps : ∀ trades reached (fill : Fill),
      Matched order state trades reached → BookShape reached.book →
        order.orderId ∉ reached.book.orderIds →
          invariant trades reached → fill.Next order reached →
            invariant (trades ++ [fill.trade])
              (reached.afterFill order fill))
    (holds : Addable order state → invariant [] state) :
    Ends (OrderBook.addOrder order) state
      (fun trades reached =>
        Addable order state ∧
          ∃ matched, reached = matched.rest order ∧
            Matched order state trades matched ∧
            invariant trades matched ∧ BookShape matched.book ∧
            order.orderId ∉ matched.book.orderIds ∧
            MatchingDone order matched)
      (fun exception reached =>
        reached = state ∧ ¬ Addable order state ∨
          Addable order state ∧ BookShape reached.book ∧
            TradeRejected order exception reached ∧
            ∃ trades, Matched order state trades reached ∧
              invariant trades reached) := by
  rw [OrderBook.addOrder, ends_get_bind]
  by_cases instrument : order.instrumentId = state.book.instrumentId
  · rw [if_neg (not_not.mpr instrument)]
    by_cases present : order.orderId ∈ state.book.orderIds
    · rw [if_pos present, ends_throw]
      exact Or.inl ⟨rfl, fun addable => addable.absent present⟩
    · rw [if_neg present]
      have addable : Addable order state := ⟨instrument, present⟩
      have matching :=
        matchOrder_ends
          (fun trades reached =>
            Matched order state trades reached ∧
              invariant trades reached)
          (fun trades reached fill reachedShape absent both next =>
            ⟨both.1.step reachedShape absent next,
              keeps trades reached fill both.1 reachedShape absent
                both.2 next⟩)
          shape present ⟨Matched.refl order state, holds addable⟩
      apply Ends.bind (matching.mono (fun _ _ facts => facts) ?_) ?_
      · rintro exception reached ⟨⟨trades, both⟩, reachedShape, rejected⟩
        exact Or.inr ⟨addable, reachedShape, rejected, trades, both⟩
      · rintro trades matched ⟨both, matchedShape, absent, done⟩
        rw [ends_get_bind]
        apply Ends.of_ok (rest_apply trades)
        exact ⟨addable, matched, rfl, both.1, both.2, matchedShape,
          absent, done⟩
  · rw [if_pos instrument, ends_throw]
    exact Or.inl
      ⟨rfl, fun addable => instrument addable.instrument⟩

/-! ## With whole quantities -/

/-- An order has been matched against a book with sound quantities. -/
structure SoundlyMatched (order : Order) (start : BookState)
    (trades : List Trade) (matched : BookState) : Prop where
  changes : Matched order start trades matched
  invariant : BookInv matched
  fillable : order.Fillable matched.heap
  absent : order.orderId ∉ matched.book.orderIds
  done : MatchingDone order matched

theorem SoundlyMatched.rest_keeps {order : Order}
    {start matched : BookState} {trades : List Trade}
    (addable : Addable order start)
    (sound : SoundlyMatched order start trades matched) :
    BookInv (matched.rest order) where
  shape :=
    rest_shape sound.invariant.shape sound.absent sound.done
      (addable.instrument.trans sound.changes.instrument.symm)
  quantities :=
    rest_quantities sound.invariant.shape sound.invariant.quantities
      sound.fillable
      (addable.instrument.trans sound.changes.instrument.symm)

/-- With whole quantities the call raises only at its two guards. -/
theorem addOrder_sound {order : Order} {state : BookState}
    (invariant : BookInv state) (fillable : order.Fillable state.heap) :
    Ends (OrderBook.addOrder order) state
      (fun trades reached =>
        Addable order state ∧
          ∃ matched, reached = matched.rest order ∧
            SoundlyMatched order state trades matched)
      (fun _ reached => reached = state ∧ ¬ Addable order state) := by
  refine
    (addOrder_ends
      (fun _ reached =>
        BookQuantities reached ∧ order.Fillable reached.heap)
      invariant.shape ?_ ?_).mono ?_ ?_
  · intro trades reached fill _ shape absent quantities next
    exact ⟨next.quantities shape absent quantities.1,
      next.order_fillable shape absent quantities.2⟩
  · intro _
    exact ⟨invariant.quantities, fillable⟩
  · rintro trades reached
      ⟨addable, matched, rfl, facts, quantities, shape, absent, done⟩
    exact ⟨addable, matched, rfl, facts, ⟨shape, quantities.1⟩,
      quantities.2, absent, done⟩
  · rintro exception reached
      (guarded | ⟨_, shape, rejected, trades, _, quantities⟩)
    · exact guarded
    · exact absurd rejected
        (not_tradeRejected ⟨shape, quantities.1⟩ quantities.2)

end InternTradingGame
