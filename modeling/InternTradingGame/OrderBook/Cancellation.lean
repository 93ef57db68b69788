import InternTradingGame.OrderBook.Insertion

/-!
# Looking an order up and cancelling it

Both operations know only the price of an order and take the side from the
price.  That is sound because the two sides of a well-formed book have no
price in common.
-/

namespace InternTradingGame

open Effects

section Lookup

variable {state : BookState} {book : OrderBook} {side : OrderSide}
  {order : Order} {price : ℚ}

/-- The side inferred from the price of a resting order is its own. -/
theorem sideOfPrice_resting (shape : BookShape book)
    (member : order ∈ book.restingOn side)
    (priced : order.price = some price) :
    book.sideOfPrice price = side := by
  rcases OrderBook.mem_restingOn_iff.mp member with
    ⟨level, levelMember, inLevel⟩
  have atPrice : level.price = price := by
    have ownPrice :=
      (shape.side side).ownPrice level levelMember order inLevel
    exact Option.some.inj (ownPrice.symm.trans priced)
  cases side with
  | buy =>
      have isBid : book.isBidPrice price = true :=
        List.any_eq_true.mpr ⟨level, levelMember, by simpa using atPrice⟩
      simp [OrderBook.sideOfPrice, isBid]
  | sell =>
      have isNotBid : book.isBidPrice price = false := by
        rw [OrderBook.isBidPrice, List.any_eq_false]
        intro bid bidMember equal
        have apart := shape.uncrossed bid bidMember level levelMember
        rw [atPrice, of_decide_eq_true equal] at apart
        exact lt_irrefl _ apart
      simp [OrderBook.sideOfPrice, isNotBid]

/-- The levels around a resting order. -/
theorem exists_level_split (shape : BookShape book)
    (member : order ∈ book.restingOn side) :
    ∃ before level after earlier later,
      book.levels side = before ++ level :: after ∧
        (∀ other ∈ before, other.price ≠ level.price) ∧
        (∀ other ∈ after, other.price ≠ level.price) ∧
        order.price = some level.price ∧
        level.orders = earlier ++ order :: later ∧
        ∀ other ∈ earlier, other.orderId ≠ order.orderId := by
  rcases OrderBook.mem_restingOn_iff.mp member with
    ⟨level, levelMember, inLevel⟩
  rcases List.append_of_mem levelMember with ⟨before, after, split⟩
  rcases List.append_of_mem inLevel with ⟨earlier, later, orders⟩
  have sorted := (shape.side side).sorted
  rw [split] at sorted
  have parts := List.pairwise_append.mp sorted
  refine ⟨before, level, after, earlier, later, split, ?_, ?_,
    (shape.side side).ownPrice level levelMember order inLevel,
    orders, ?_⟩
  · intro other inBefore
    exact (parts.2.2 other inBefore level List.mem_cons_self).ne
  · intro other inAfter
    exact ((List.pairwise_cons.mp parts.2.1).1 other inAfter).ne.symm
  · have distinct :=
      ((@OrderBook.resting_perm _ side).map
        Order.orderId).nodup_iff.mp shape.distinct
    rw [OrderBook.restingOn, split, List.flatMap_append,
      List.flatMap_cons, orders] at distinct
    simp only [List.map_append, List.map_cons,
      List.append_assoc] at distinct
    have inner := (List.nodup_append.mp distinct).2.1
    have apart := (List.nodup_append.mp inner).2.2
    intro other inEarlier equal
    exact apart other.orderId (List.mem_map_of_mem inEarlier)
      order.orderId (List.mem_append_left _ List.mem_cons_self) equal

theorem find?_level {before after : List PriceLevel} {level : PriceLevel}
    (missed : ∀ other ∈ before, other.price ≠ level.price) :
    ((before ++ level :: after).find?
        fun other => other.price = level.price) = some level := by
  rw [List.find?_eq_some_iff_append]
  refine ⟨by simp, before, after, rfl, ?_⟩
  intro other member
  simpa using missed other member

theorem find?_order {earlier later : List Order}
    (missed : ∀ other ∈ earlier, other.orderId ≠ order.orderId) :
    ((earlier ++ order :: later).find?
        fun other => other.orderId = order.orderId) = some order := by
  rw [List.find?_eq_some_iff_append]
  refine ⟨by simp, earlier, later, rfl, ?_⟩
  intro other member
  simpa using missed other member

/-- `get_order` finds exactly the resting orders. -/
theorem getOrder_eq_some_iff (shape : BookShape book)
    (orderId : String) (found : Order) :
    book.getOrder orderId = some found ↔
      found ∈ book.resting ∧ found.orderId = orderId := by
  have finds : ∀ order ∈ book.resting,
      book.getOrder order.orderId = some order := by
    intro order member
    rcases OrderBook.exists_side member with ⟨side, onSide⟩
    rcases exists_level_split shape onSide with
      ⟨before, level, after, earlier, later, split, notBefore, notAfter,
        priced, orders, missed⟩
    have stored : book.orderPriceMap.get? order.orderId =
        some level.price :=
      (shape.prices _ _).mpr ⟨order, member, rfl, priced⟩
    have filtered :
        ((book.levels side).filter
          fun other => other.price = level.price) = [level] := by
      rw [split, List.filter_append, List.filter_cons_of_pos (by simp),
        List.filter_eq_nil_iff.mpr (by simpa using notBefore),
        List.filter_eq_nil_iff.mpr (by simpa using notAfter)]
      rfl
    simp only [OrderBook.getOrder, stored]
    rw [sideOfPrice_resting shape onSide priced, filtered,
      List.findSome?_cons, orders, find?_order missed]
  constructor
  · intro lookup
    unfold OrderBook.getOrder at lookup
    cases stored : book.orderPriceMap.get? orderId with
    | none => simp [stored] at lookup
    | some price =>
        rcases (shape.prices orderId price).mp stored with
          ⟨order, member, rfl, _⟩
        have finding := finds order member
        rw [OrderBook.getOrder] at finding
        rw [finding] at lookup
        rcases Option.some.inj lookup with rfl
        exact ⟨member, rfl⟩
  · rintro ⟨member, rfl⟩
    exact finds found member

end Lookup

/-! ## Cancellation -/

section Cancel

variable {state : BookState} {side : OrderSide} {order : Order}

theorem removeOrder_split {level : PriceLevel}
    {earlier later : List Order} (heap : Heap)
    (orders : level.orders = earlier ++ order :: later)
    (missed : ∀ other ∈ earlier, other.orderId ≠ order.orderId) :
    level.removeOrder heap order.orderId =
      ({ level with
          orders := earlier ++ later
          totalQuantity :=
            level.totalQuantity - heap.remaining order },
        some order) := by
  have erased :
      ((earlier ++ order :: later).eraseP
        fun other => other.orderId = order.orderId) =
        earlier ++ later := by
    rw [List.eraseP_append_right _ (by simpa using missed),
      List.eraseP_cons_of_pos (by simp)]
  simp only [PriceLevel.removeOrder, orders, find?_order missed, erased]

theorem dropCancelled_apply {before after : List PriceLevel}
    {shrunk : PriceLevel} {orderId : String}
    (missed : shrunk ∉ before)
    (listed : orderId ∈ state.book.orderIds)
    (priced : state.book.orderPriceMap.Contains orderId) :
    OrderBook.dropCancelled side (before ++ shrunk :: after)
        shrunk orderId state =
      .ok ⟨⟩
        { state with
          book :=
            { state.book.setLevels side
                (before ++ (shrunk.listed ++ after)) with
              orderIds := state.book.orderIds.erase orderId
              orderPriceMap :=
                state.book.orderPriceMap.erase orderId } } := by
  have erased :
      (before ++ shrunk :: after).erase shrunk = before ++ after := by
    rw [List.erase_append_right _ missed, List.erase_cons_head]
  simp only [OrderBook.dropCancelled, bind_apply, modify_apply]
  rw [deleteOrderPrice_apply (by simpa using priced)]
  simp only []
  rw [removeOrderId_apply (by simpa using listed)]
  by_cases empty : shrunk.orders = []
  · rw [PriceLevel.listed_of_empty empty, List.nil_append, ← erased]
    simp only [PriceLevel.isEmpty, empty]
    cases side <;> rfl
  · rw [PriceLevel.listed_of_occupied empty]
    simp [PriceLevel.isEmpty, empty]

/-- An id which does not rest is not found, and nothing changes. -/
theorem cancelOrder_missing {orderId : String}
    (shape : BookShape state.book)
    (missing : ∀ order ∈ state.book.resting,
      order.orderId ≠ orderId) :
    OrderBook.cancelOrder orderId state = .ok none state := by
  have absent : state.book.orderPriceMap.get? orderId = none := by
    cases stored : state.book.orderPriceMap.get? orderId with
    | none => rfl
    | some price =>
        rcases (shape.prices orderId price).mp stored with
          ⟨order, member, equal, _⟩
        exact absurd equal (missing order member)
  simp [OrderBook.cancelOrder, absent]

/-- The level without one of its orders. -/
def PriceLevel.takeOut (level : PriceLevel) (heap : Heap)
    (order : Order) : PriceLevel :=
  { level with
    orders := level.orders.erase order
    totalQuantity := level.totalQuantity - heap.remaining order }

/-- The book without one of its orders; an emptied level goes as well. -/
def OrderBook.takeOut (book : OrderBook) (heap : Heap)
    (side : OrderSide) (order : Order) : OrderBook :=
  { book.setLevels side
      ((book.levels side).flatMap fun level =>
        if order ∈ level.orders then
          (level.takeOut heap order).listed
        else
          [level]) with
    orderIds := book.orderIds.erase order.orderId
    orderPriceMap := book.orderPriceMap.erase order.orderId }

theorem takeOut_level {level : PriceLevel} {earlier later : List Order}
    (heap : Heap) (orders : level.orders = earlier ++ order :: later)
    (missed : ∀ other ∈ earlier, other.orderId ≠ order.orderId) :
    level.takeOut heap order =
      { level with
        orders := earlier ++ later
        totalQuantity :=
          level.totalQuantity - heap.remaining order } := by
  have absent : order ∉ earlier := fun member =>
    missed order member rfl
  rw [PriceLevel.takeOut, orders, List.erase_append_right _ absent,
    List.erase_cons_head]

/-- Only the level of the order changes. -/
theorem takeOut_levels {book : OrderBook} {before after : List PriceLevel}
    {level : PriceLevel} (heap : Heap) (shape : BookShape book)
    (split : book.levels side = before ++ level :: after)
    (notBefore : ∀ other ∈ before, other.price ≠ level.price)
    (notAfter : ∀ other ∈ after, other.price ≠ level.price)
    (priced : order.price = some level.price)
    (inLevel : order ∈ level.orders) :
    (book.takeOut heap side order).levels side =
      before ++ ((level.takeOut heap order).listed ++ after) := by
  have elsewhere : ∀ levels : List PriceLevel,
      (∀ other ∈ levels, other ∈ book.levels side) →
        (∀ other ∈ levels, other.price ≠ level.price) →
          (levels.flatMap fun other =>
            if order ∈ other.orders then
              (other.takeOut heap order).listed
            else
              [other]) = levels := by
    intro levels listed apart
    have kept : ∀ other ∈ levels, order ∉ other.orders := by
      intro other member inOther
      have price :=
        (shape.side side).ownPrice other (listed other member) order inOther
      exact apart other member
        (Option.some.inj (price.symm.trans priced))
    rw [List.flatMap_congr fun other member =>
      if_neg (kept other member)]
    exact List.flatMap_singleton' levels
  have levels : (book.takeOut heap side order).levels side =
      (book.levels side).flatMap fun other =>
        if order ∈ other.orders then
          (other.takeOut heap order).listed
        else
          [other] := by
    cases side <;> rfl
  rw [levels, split, List.flatMap_append, List.flatMap_cons,
    if_pos inLevel, elsewhere before _ notBefore,
    elsewhere after _ notAfter]
  · intro other member
    rw [split]
    exact List.mem_append_right _ (List.mem_cons_of_mem _ member)
  · intro other member
    rw [split]
    exact List.mem_append_left _ member

/-- A cancel takes a resting order out of the book. -/
theorem cancelOrder_takesOut (shape : BookShape state.book)
    (member : order ∈ state.book.restingOn side) :
    OrderBook.cancelOrder order.orderId state =
      .ok (some order)
        { state with
          book := state.book.takeOut state.heap side order } := by
  rcases exists_level_split shape member with
    ⟨before, level, after, earlier, later, split, notBefore, notAfter, priced,
      orders, missed⟩
  have resting := OrderBook.mem_resting_of_mem member
  have inLevel : order ∈ level.orders := by
    rw [orders]
    exact List.mem_append_right _ List.mem_cons_self
  have stored :
      state.book.orderPriceMap.get? order.orderId = some level.price :=
    (shape.prices _ _).mpr ⟨order, resting, rfl, priced⟩
  have updated :
      Sequences.updateFirst
          (fun other : PriceLevel => other.price = level.price)
          (fun _ => level.takeOut state.heap order)
          (before ++ level :: after) =
        some (before ++ level.takeOut state.heap order :: after) :=
    Sequences.updateFirst_append _ _ notBefore rfl
  have notShrunk : level.takeOut state.heap order ∉ before := by
    intro inBefore
    exact notBefore _ inBefore rfl
  have levels := takeOut_levels state.heap shape split notBefore notAfter
    priced inLevel
  have taken : state.book.takeOut state.heap side order =
      { state.book.setLevels side
          (before ++ ((level.takeOut state.heap order).listed ++ after)) with
        orderIds := state.book.orderIds.erase order.orderId
        orderPriceMap :=
          state.book.orderPriceMap.erase order.orderId } := by
    rw [← levels]
    cases side <;> rfl
  simp only [OrderBook.cancelOrder, bind_apply, get_apply, stored,
    sideOfPrice_resting shape member priced, split, find?_level notBefore,
    removeOrder_split state.heap orders missed,
    ← takeOut_level state.heap orders missed]
  rw [updated, Option.getD_some,
    dropCancelled_apply notShrunk (shape.contains_orderId resting)
      (shape.contains_price resting), taken]
  rfl

/-- The book without a resting order. -/
structure Cancelled (side : OrderSide) (order : Order)
    (state reached : BookState) : Prop where
  removed : Removed side order state.book reached.book
  heap : reached.heap = state.heap
  trades : reached.book.trades = state.book.trades
  totals :
    (∀ level ∈ state.book.levels side, LevelTotal state.heap level) →
      ∀ level ∈ reached.book.levels side,
        LevelTotal state.heap level

theorem cancelled_takeOut (shape : BookShape state.book)
    (member : order ∈ state.book.restingOn side) :
    Cancelled side order state
      { state with
        book := state.book.takeOut state.heap side order } := by
  rcases exists_level_split shape member with
    ⟨before, level, after, earlier, later, split, notBefore, notAfter, priced,
      orders, missed⟩
  have inLevel : order ∈ level.orders := by
    rw [orders]
    exact List.mem_append_right _ List.mem_cons_self
  have levels := takeOut_levels state.heap shape split notBefore notAfter
    priced inLevel
  have shrunk := takeOut_level state.heap orders missed
  refine ⟨?_, rfl, ?_, ?_⟩
  · apply
      @Removed.of_levels _ _ _ _ before after level
        (level.takeOut state.heap order) earlier later
        (shape.side side) split levels rfl orders
    · rw [shrunk]
    · cases side <;> rfl
    · cases side <;> rfl
    · rfl
    · rfl
  · cases side <;> rfl
  · intro totals other otherMember
    rw [levels] at otherMember
    rcases List.mem_append.mp otherMember with inBefore | inRest
    · exact totals other (split ▸ List.mem_append_left _ inBefore)
    · rcases List.mem_append.mp inRest with inShrunk | inAfter
      · rcases PriceLevel.mem_listed_iff.mp inShrunk with ⟨rfl, _⟩
        have total := totals level
          (split ▸ List.mem_append_right _ List.mem_cons_self)
        rw [LevelTotal, orders] at total
        rw [shrunk]
        change
          level.totalQuantity - state.heap.remaining order =
            ((earlier ++ later).map state.heap.remaining).sum
        rw [total]
        simp only [List.map_append, List.map_cons, List.sum_append,
          List.sum_cons]
        ring
      · exact totals other
          (split ▸
            List.mem_append_right _ (List.mem_cons_of_mem _ inAfter))

/-- A resting order is found and leaves the book. -/
theorem cancelOrder_resting (shape : BookShape state.book)
    (member : order ∈ state.book.restingOn side) :
    ∃ reached,
      OrderBook.cancelOrder order.orderId state =
          .ok (some order) reached ∧
        Cancelled side order state reached :=
  ⟨_, cancelOrder_takesOut shape member, cancelled_takeOut shape member⟩

/-- Cancelling keeps the representation invariant. -/
theorem Cancelled.keeps {reached : BookState}
    (cancelled : Cancelled side order state reached)
    (invariant : BookInv state) : BookInv reached where
  shape := cancelled.removed.keeps invariant.shape
  quantities :=
    { totals := by
        intro which level member
        rw [cancelled.heap]
        by_cases own : which = side
        · subst own
          exact cancelled.totals (invariant.quantities.totals which)
            level member
        · rcases OrderSide.eq_opposite_of_ne own with rfl
          rw [cancelled.removed.other] at member
          exact invariant.quantities.totals _ level member
      fillable := by
        intro candidate member
        rw [cancelled.heap]
        exact invariant.quantities.fillable candidate
          (cancelled.removed.mem_resting_iff.mpr (Or.inr member))
      positive := by
        intro candidate member
        rw [cancelled.heap]
        exact invariant.quantities.positive candidate
          (cancelled.removed.mem_resting_iff.mpr (Or.inr member)) }

/-- Cancelling finds exactly the resting orders. -/
theorem cancelOrder_cases (shape : BookShape state.book)
    (orderId : String) :
    (∃ side order reached, order ∈ state.book.restingOn side ∧
        order.orderId = orderId ∧
        OrderBook.cancelOrder orderId state =
          .ok (some order) reached ∧
        Cancelled side order state reached) ∨
      (∀ order ∈ state.book.resting, order.orderId ≠ orderId) ∧
        OrderBook.cancelOrder orderId state = .ok none state := by
  by_cases resting :
      ∃ order ∈ state.book.resting, order.orderId = orderId
  · rcases resting with ⟨order, member, rfl⟩
    rcases OrderBook.exists_side member with ⟨side, onSide⟩
    rcases cancelOrder_resting shape onSide with
      ⟨reached, evaluates, cancelled⟩
    exact Or.inl
      ⟨side, order, reached, onSide, rfl, evaluates, cancelled⟩
  · have missing : ∀ order ∈ state.book.resting,
        order.orderId ≠ orderId := by
      intro order member equal
      exact resting ⟨order, member, equal⟩
    exact Or.inr ⟨missing, cancelOrder_missing shape missing⟩

end Cancel

end InternTradingGame
