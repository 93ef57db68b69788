import InternTradingGame.Library.Lockstep
import InternTradingGame.OrderBook.Matching

/-!
# What a book reads and writes

The programs of a book read the heap at the orders they work on, which are
the orders of the book and the order passed to them, and write it nowhere
else.  Two heaps which agree there are alike: the programs return the same,
raise the same and leave the same book.  The history variables of the heap
are never read, so the trades of two heaps may differ, too; what is compared
of them is chosen by `seen`.
-/

namespace InternTradingGame

open Effects

/-! ## Heaps which agree on some orders -/

/-- The heaps agree on the ids and on the trades which are looked at. -/
structure Heap.Alike (ids : Set String) (seen : Trade → Bool)
    (left right : Heap) : Prop where
  remaining : ∀ orderId ∈ ids,
    left.remainingQuantity orderId = right.remainingQuantity orderId
  trades : left.trades.filter seen = right.trades.filter seen

/-- Only the given orders and trades of one instrument are touched. -/
structure Heap.Touched (ids : Set String) (instrumentId : String)
    (before after : Heap) : Prop where
  remaining : ∀ orderId, orderId ∉ ids →
    after.remainingQuantity orderId = before.remainingQuantity orderId
  trades : ∃ made, after.trades = before.trades ++ made ∧
    ∀ trade ∈ made, trade.instrumentId = instrumentId
  orders : after.orders = before.orders

namespace Heap.Alike

variable {ids : Set String} {seen : Trade → Bool} {left right : Heap}

theorem refl (heap : Heap) : Heap.Alike ids seen heap heap :=
  ⟨fun _ _ => rfl, rfl⟩

theorem symm (alike : Heap.Alike ids seen left right) :
    Heap.Alike ids seen right left :=
  ⟨fun orderId known => (alike.remaining orderId known).symm,
    alike.trades.symm⟩

theorem trans {middle : Heap} (first : Heap.Alike ids seen left middle)
    (second : Heap.Alike ids seen middle right) :
    Heap.Alike ids seen left right :=
  ⟨fun orderId known =>
      (first.remaining orderId known).trans
        (second.remaining orderId known),
    first.trades.trans second.trades⟩

theorem of_order (alike : Heap.Alike ids seen left right) {order : Order}
    (known : order.orderId ∈ ids) :
    left.remaining order = right.remaining order :=
  alike.remaining order.orderId known

theorem record (alike : Heap.Alike ids seen left right)
    (trade : Trade) :
    Heap.Alike ids seen (left.record trade) (right.record trade) where
  remaining := alike.remaining
  trades := by
    rw [Heap.record_trades, Heap.record_trades, List.filter_append,
      List.filter_append, alike.trades]

theorem setRemaining (alike : Heap.Alike ids seen left right)
    (orderId : String) (quantity : ℚ) :
    Heap.Alike ids seen (left.setRemaining orderId quantity)
      (right.setRemaining orderId quantity) where
  remaining := by
    intro other known
    by_cases same : other = orderId
    · subst same
      rw [Heap.remainingQuantity_setRemaining_self,
        Heap.remainingQuantity_setRemaining_self]
    · rw [Heap.remainingQuantity_setRemaining_ne _ _ same,
        Heap.remainingQuantity_setRemaining_ne _ _ same]
      exact alike.remaining other known
  trades := alike.trades

/-- A new order starts with the same quantity. -/
theorem allocate (alike : Heap.Alike ids seen left right)
    (order : Order) :
    Heap.Alike (insert order.orderId ids) seen (left.allocate order)
      (right.allocate order) where
  remaining := by
    intro other known
    by_cases same : other = order.orderId
    · subst same
      exact (left.remaining_allocate_self order).trans
        (right.remaining_allocate_self order).symm
    · have old : other ∈ ids := known.resolve_left same
      exact (Heap.remainingQuantity_setRemaining_ne _ _ same).trans
        ((alike.remaining other old).trans
          (Heap.remainingQuantity_setRemaining_ne _ _ same).symm)
  trades := alike.trades

theorem mono (alike : Heap.Alike ids seen left right)
    {fewer : Set String} (sub : fewer ⊆ ids) :
    Heap.Alike fewer seen left right :=
  ⟨fun orderId known => alike.remaining orderId (sub known),
    alike.trades⟩

end Heap.Alike

namespace Heap.Touched

variable {ids : Set String} {instrumentId : String}
  {before middle after : Heap}

theorem refl (heap : Heap) : Heap.Touched ids instrumentId heap heap :=
  ⟨fun _ _ => rfl, ⟨[], by simp⟩, rfl⟩

theorem record (touched : Heap.Touched ids instrumentId before after)
    {trade : Trade} (instrument : trade.instrumentId = instrumentId) :
    Heap.Touched ids instrumentId before (after.record trade) where
  remaining := touched.remaining
  trades := by
    rcases touched.trades with ⟨made, recorded, named⟩
    refine ⟨made ++ [trade], ?_, ?_⟩
    · rw [Heap.record_trades, recorded, List.append_assoc]
    · intro other member
      rcases List.mem_append.mp member with old | new
      · exact named other old
      · rw [List.mem_singleton.mp new]
        exact instrument
  orders := touched.orders

theorem setRemaining
    (touched : Heap.Touched ids instrumentId before after)
    {orderId : String} (known : orderId ∈ ids) (quantity : ℚ) :
    Heap.Touched ids instrumentId before
      (after.setRemaining orderId quantity) where
  remaining := by
    intro other outside
    have different : other ≠ orderId := by
      rintro rfl
      exact outside known
    rw [Heap.remainingQuantity_setRemaining_ne _ _ different]
    exact touched.remaining other outside
  trades := touched.trades
  orders := touched.orders

/-- What is not looked at is not seen to change. -/
theorem alike (touched : Heap.Touched ids instrumentId before after)
    {others : Set String} {seen : Trade → Bool}
    (apart : ∀ orderId ∈ others, orderId ∉ ids)
    (unseen : ∀ trade, seen trade = true →
      trade.instrumentId ≠ instrumentId) :
    Heap.Alike others seen before after where
  remaining orderId inOthers :=
    (touched.remaining orderId (apart orderId inOthers)).symm
  trades := by
    rcases touched.trades with ⟨made, recorded, named⟩
    have none : made.filter seen = [] := by
      rw [List.filter_eq_nil_iff]
      intro trade member isSeen
      exact unseen trade isSeen (named trade member)
    rw [recorded, List.filter_append, none, List.append_nil]

end Heap.Touched

/-! ## Books on such heaps -/

/-- All orders of the levels have ids of the set. -/
def LevelsWithin (ids : Set String) (levels : List PriceLevel) : Prop :=
  ∀ level ∈ levels, ∀ order ∈ level.orders, order.orderId ∈ ids

/-- All resting orders have ids of the set. -/
def OrderBook.Within (ids : Set String) (book : OrderBook) : Prop :=
  ∀ side, LevelsWithin ids (book.levels side)

/--
What two programs may work on: the orders and the trades which are compared,
the instrument, and the two states they start from.
-/
structure Scope (σ : Type) where
  ids : Set String
  seen : Trade → Bool
  instrumentId : String
  first : σ
  second : σ

/-- The scope of a part of the state. -/
def Scope.map {σ τ : Type} (part : σ → τ) (scope : Scope σ) :
    Scope τ where
  ids := scope.ids
  seen := scope.seen
  instrumentId := scope.instrumentId
  first := part scope.first
  second := part scope.second

/--
The same book on two heaps which agree on its orders.  Neither heap has
changed outside the scope.
-/
structure BookState.Alike (scope : Scope Heap) (left right : BookState) :
    Prop where
  heap : Heap.Alike scope.ids scope.seen left.heap right.heap
  first : Heap.Touched scope.ids scope.instrumentId scope.first left.heap
  second :
    Heap.Touched scope.ids scope.instrumentId scope.second right.heap
  book : left.book = right.book
  named : left.book.instrumentId = scope.instrumentId
  within : left.book.Within scope.ids

section Within

variable {ids : Set String} {book : OrderBook} {side : OrderSide}
  {levels : List PriceLevel}

theorem LevelsWithin.tail {level : PriceLevel}
    (within : LevelsWithin ids (level :: levels)) :
    LevelsWithin ids levels :=
  fun other member => within other (List.mem_cons_of_mem _ member)

theorem LevelsWithin.sublist {kept : List PriceLevel}
    (within : LevelsWithin ids levels) (sub : kept.Sublist levels) :
    LevelsWithin ids kept :=
  fun level member => within level (sub.subset member)

/-- The first level may lose orders. -/
theorem LevelsWithin.replace_head {level smaller : PriceLevel}
    (within : LevelsWithin ids (level :: levels))
    (fewer : ∀ order ∈ smaller.orders, order ∈ level.orders) :
    LevelsWithin ids (smaller :: levels) := by
  intro other member order inOther
  rcases List.mem_cons.mp member with rfl | inTail
  · exact within level List.mem_cons_self order (fewer order inOther)
  · exact within.tail other inTail order inOther

theorem OrderBook.Within.setLevels (within : book.Within ids)
    (changed : LevelsWithin ids levels) :
    (book.setLevels side levels).Within ids := by
  intro other
  by_cases same : other = side
  · subst same
    rw [OrderBook.levels_setLevels_self]
    exact changed
  · rw [OrderSide.eq_opposite_of_ne same,
      OrderBook.levels_setLevels_opposite]
    exact within side.opposite

theorem OrderBook.Within.mono {wider : Set String}
    (within : book.Within ids) (sub : ids ⊆ wider) : book.Within wider :=
  fun side level member order inLevel =>
    sub (within side level member order inLevel)

theorem OrderBook.Within.of_mem_resting (within : book.Within ids)
    {order : Order} (resting : order ∈ book.resting) :
    order.orderId ∈ ids := by
  rcases OrderBook.exists_side resting with ⟨side, onSide⟩
  rcases OrderBook.mem_restingOn_iff.mp onSide with ⟨level, member, inLevel⟩
  exact within side level member order inLevel

theorem OrderBook.Within.resting_eq_nil (bare : book.Within ∅) :
    book.resting = [] := by
  rw [List.eq_nil_iff_forall_not_mem]
  intro order resting
  exact bare.of_mem_resting resting

/-- Only the levels matter. -/
theorem OrderBook.Within.congr {other : OrderBook}
    (within : book.Within ids)
    (levels : ∀ side, other.levels side = book.levels side) :
    other.Within ids := by
  intro side
  rw [levels side]
  exact within side

end Within

/-! ## The programs of a book -/

section Programs

variable {scope : Scope Heap} {left right : BookState}
  {order matching : Order}

open OrderBook

/-- The book has changed, but not its name and not its levels. -/
theorem BookState.Alike.setBook
    (alike : BookState.Alike scope left right)
    {book other : OrderBook} (same : book = other)
    (named : book.instrumentId = left.book.instrumentId)
    (within : book.Within scope.ids) :
    BookState.Alike scope { left with book := book }
      { right with book := other } where
  heap := alike.heap
  first := alike.first
  second := alike.second
  book := same
  named := named.trans alike.named
  within := within

theorem BookState.Alike.setLevels
    (alike : BookState.Alike scope left right) {side : OrderSide}
    {levels : List PriceLevel}
    (changed : LevelsWithin scope.ids levels) :
    BookState.Alike scope (left.setLevels side levels)
      (right.setLevels side levels) :=
  alike.setBook (congrArg (·.setLevels side levels) alike.book)
    (setLevels_instrumentId ..) (alike.within.setLevels changed)

theorem BookState.Alike.setHeap
    (alike : BookState.Alike scope left right)
    (known : order.orderId ∈ scope.ids) (quantity : ℚ) :
    BookState.Alike scope
      { left with
        heap := left.heap.setRemaining order.orderId quantity }
      { right with
        heap := right.heap.setRemaining order.orderId quantity } where
  heap := alike.heap.setRemaining _ _
  first := alike.first.setRemaining known _
  second := alike.second.setRemaining known _
  book := alike.book
  named := alike.named
  within := alike.within

theorem BookState.Alike.recordTrade
    (alike : BookState.Alike scope left right) {trade : Trade}
    (instrument : trade.instrumentId = scope.instrumentId) :
    BookState.Alike scope (left.recordTrade trade)
      (right.recordTrade trade) where
  heap := alike.heap.record trade
  first := alike.first.record instrument
  second := alike.second.record instrument
  book := congrArg (·.appendTrade trade) alike.book
  named := (appendTrade_instrumentId ..).trans alike.named
  within := alike.within.congr fun side =>
    levels_appendTrade left.book side trade

theorem fillOrder_alike (alike : BookState.Alike scope left right)
    (known : order.orderId ∈ scope.ids) (quantity : ℚ) :
    Lockstep (BookState.Alike scope) (fillOrder order quantity)
      (fillOrder order quantity) left right := by
  rw [fillOrder]
  apply Lockstep.reads
  rw [Order.fill, Order.fill, alike.heap.of_order known]
  by_cases positive : quantity ≤ 0
  · rw [if_pos positive, if_pos positive]
    exact ⟨rfl, alike⟩
  · rw [if_neg positive, if_neg positive]
    by_cases available : right.heap.remaining order < quantity
    · rw [if_pos available, if_pos available]
      exact ⟨rfl, alike⟩
    · rw [if_neg available, if_neg available]
      exact ⟨rfl, alike.setHeap known _⟩

theorem removeOrderId_alike (alike : BookState.Alike scope left right)
    (orderId : String) :
    Lockstep (BookState.Alike scope) (removeOrderId orderId)
      (removeOrderId orderId) left right := by
  rw [removeOrderId]
  apply Lockstep.reads
  apply Lockstep.branches (by rw [alike.book])
  · intro _
    apply Lockstep.modifies
    exact alike.setBook (by rw [alike.book]) rfl
      (alike.within.congr fun side => by cases side <;> rfl)
  · intro _
    exact Lockstep.raises _ alike

theorem deleteOrderPrice_alike
    (alike : BookState.Alike scope left right) (orderId : String) :
    Lockstep (BookState.Alike scope) (deleteOrderPrice orderId)
      (deleteOrderPrice orderId) left right := by
  rw [deleteOrderPrice]
  apply Lockstep.reads
  apply Lockstep.branches (by rw [alike.book])
  · intro _
    apply Lockstep.modifies
    exact alike.setBook (by rw [alike.book]) rfl
      (alike.within.congr fun side => by cases side <;> rfl)
  · intro _
    exact Lockstep.raises _ alike

/-- Removing an order reads its remaining quantity only. -/
theorem removeOrder_alike {level : PriceLevel} {ids : Set String}
    {seen : Trade → Bool} {first second : Heap}
    (alike : Heap.Alike ids seen first second)
    (within : ∀ order ∈ level.orders, order.orderId ∈ ids)
    (orderId : String) :
    level.removeOrder first orderId = level.removeOrder second orderId := by
  rw [PriceLevel.removeOrder, PriceLevel.removeOrder]
  cases found : level.orders.find? fun order => order.orderId = orderId with
  | none => rfl
  | some removed =>
      have member := List.mem_of_find?_eq_some found
      simp only [alike.of_order (within removed member)]

theorem removeOrder_sub (level : PriceLevel) (heap : Heap)
    (orderId : String) :
    ∀ order ∈ (level.removeOrder heap orderId).1.orders,
      order ∈ level.orders := by
  intro order member
  rw [PriceLevel.removeOrder] at member
  cases found : level.orders.find? fun order => order.orderId = orderId with
  | none =>
      rw [found] at member
      exact member
  | some removed =>
      rw [found] at member
      exact List.eraseP_sublist.subset member

theorem dropFilled_alike (alike : BookState.Alike scope left right)
    {side : OrderSide} {best : PriceLevel} {deeper : List PriceLevel}
    (within : LevelsWithin scope.ids (best :: deeper)) :
    Lockstep (BookState.Alike scope)
      (dropFilled side best deeper matching)
      (dropFilled side best deeper matching) left right := by
  rw [dropFilled]
  apply Lockstep.reads
  rw [removeOrder_alike alike.heap (within best List.mem_cons_self)]
  have shrunk := within.replace_head
    (removeOrder_sub best right.heap matching.orderId)
  apply (Lockstep.modifies (alike.setLevels shrunk)).bind
  intro _ _ _ alike
  apply (removeOrderId_alike alike matching.orderId).bind
  intro _ _ _ alike
  apply (deleteOrderPrice_alike alike matching.orderId).bind
  intro _ _ _ alike
  apply Lockstep.branches Iff.rfl
  · intro _
    exact Lockstep.modifies (alike.setLevels within.tail)
  · intro _
    exact Lockstep.returns _ alike

theorem matchIteration_alike (alike : BookState.Alike scope left right)
    (known : order.orderId ∈ scope.ids) :
    Lockstep (BookState.Alike scope) (matchIteration order)
      (matchIteration order) left right := by
  rw [matchIteration]
  apply Lockstep.reads
  apply Lockstep.branches
    (by rw [Order.IsFilled, Order.IsFilled, alike.heap.of_order known])
  · intro _
    exact Lockstep.returns _ alike
  · intro _
    rw [← alike.book]
    have within := alike.within order.side.opposite
    cases side : left.book.levels order.side.opposite with
    | nil => exact Lockstep.returns _ alike
    | cons best deeper =>
        rw [side] at within
        apply Lockstep.branches Iff.rfl
        · intro _
          exact Lockstep.returns _ alike
        · intro _
          rcases best with ⟨price, queue, total⟩
          cases queue with
          | nil => exact Lockstep.raises _ alike
          | cons matching later =>
              have resting : matching.orderId ∈ scope.ids :=
                within _ List.mem_cons_self matching List.mem_cons_self
              simp only [alike.heap.of_order known,
                alike.heap.of_order resting]
              apply Lockstep.lifts_bind alike
              intro trade created
              have instrument :=
                (newTrade_ok created).instrument.trans alike.named
              apply (Lockstep.modifies
                (alike.recordTrade instrument)).bind
              intro _ _ _ alike
              apply (fillOrder_alike alike known _).bind
              intro _ _ _ alike
              apply (fillOrder_alike alike resting _).bind
              intro _ _ _ alike
              have reduced : LevelsWithin scope.ids
                  (⟨price, matching :: later, total -
                      min (right.heap.remaining order)
                        (right.heap.remaining matching)⟩ :: deeper) :=
                within.replace_head fun _ member => member
              apply (Lockstep.modifies (alike.setLevels reduced)).bind
              intro _ settled other alike
              apply Lockstep.reads
              have same : matching.IsFilled settled.heap ↔
                  matching.IsFilled other.heap := by
                rw [Order.IsFilled, Order.IsFilled,
                  alike.heap.of_order resting]
              apply Lockstep.branches same
              · intro _
                apply (dropFilled_alike alike reduced).bind
                intro _ _ _ alike
                exact Lockstep.returns _ alike
              · intro _
                exact Lockstep.returns _ alike

theorem matchLoop_alike (known : order.orderId ∈ scope.ids)
    (iterations : Nat) (trades : List Trade)
    (alike : BookState.Alike scope left right) :
    Lockstep (BookState.Alike scope)
      (matchLoop order iterations trades)
      (matchLoop order iterations trades) left right := by
  induction iterations generalizing trades left right with
  | zero => exact Lockstep.raises _ alike
  | succ iterations induction =>
      rw [matchLoop]
      apply (matchIteration_alike alike known).bind
      intro made _ _ alike
      cases made with
      | none => exact Lockstep.returns _ alike
      | some trade => exact induction _ alike

theorem matchOrder_alike (alike : BookState.Alike scope left right)
    (known : order.orderId ∈ scope.ids) :
    Lockstep (BookState.Alike scope) (matchOrder order)
      (matchOrder order) left right := by
  rw [matchOrder]
  apply Lockstep.reads
  rw [alike.book]
  exact matchLoop_alike known _ _ alike

/-- The order joins the levels. -/
theorem LevelsWithin.insert {levels : List PriceLevel}
    (within : LevelsWithin scope.ids levels) (known : order.orderId ∈ scope.ids)
    (heap : Heap) (price : ℚ) :
    LevelsWithin scope.ids
      (insertIntoLevels levels heap order price) := by
  have joined : ∀ level : PriceLevel,
      (∀ other ∈ level.orders, other.orderId ∈ scope.ids) →
        ∀ other ∈ (level.addOrder heap order).orders,
          other.orderId ∈ scope.ids := by
    intro level inLevel other member
    rcases List.mem_append.mp member with old | new
    · exact inLevel other old
    · rw [List.mem_singleton.mp new]
      exact known
  rw [insertIntoLevels]
  cases updates : Sequences.updateFirst
      (fun level : PriceLevel => level.price = price)
      (·.addOrder heap order) levels with
  | none =>
      intro level member
      rcases List.eq_or_mem_of_mem_insertIdx member with rfl | old
      · exact joined _ (by simp [PriceLevel.new])
      · exact within level old
  | some updated =>
      intro level member
      rcases Sequences.mem_updateFirst _ updates member with
        old | ⟨old, inOld, _, rfl⟩
      · exact within level old
      · exact joined old (within old inOld)

theorem insertOrder_alike (alike : BookState.Alike scope left right)
    (known : order.orderId ∈ scope.ids) :
    Lockstep (BookState.Alike scope) (insertOrder order)
      (insertOrder order) left right := by
  rw [insertOrder]
  cases order.price with
  | none => exact Lockstep.raises _ alike
  | some price =>
      apply Lockstep.modifies
      have same : insertIntoLevels (left.book.levels order.side)
            left.heap order price =
          insertIntoLevels (right.book.levels order.side)
            right.heap order price := by
        simp only [insertIntoLevels, PriceLevel.addOrder, alike.book,
          alike.heap.of_order known]
      apply alike.setBook
      · rw [same, alike.book]
      · exact setLevels_instrumentId ..
      · have inserted : (left.book.setLevels order.side
              (insertIntoLevels (left.book.levels order.side) left.heap
                order price)).Within scope.ids :=
          alike.within.setLevels
            ((alike.within order.side).insert known left.heap price)
        exact inserted.congr fun side => by cases side <;> rfl

/-- Adding an order reads the heap at the orders of the book and at it. -/
theorem addOrder_alike (alike : BookState.Alike scope left right)
    (known : order.orderId ∈ scope.ids) :
    Lockstep (BookState.Alike scope) (addOrder order)
      (addOrder order) left right := by
  rw [addOrder]
  apply Lockstep.reads
  rw [alike.book]
  apply Lockstep.branches Iff.rfl
  · intro _
    exact Lockstep.raises _ alike
  · intro _
    apply Lockstep.branches Iff.rfl
    · intro _
      exact Lockstep.raises _ alike
    · intro _
      apply (matchOrder_alike alike known).bind
      intro trades matched other alike
      apply Lockstep.reads
      have same : ¬ order.IsFilled matched.heap ∧ order.IsLimitOrder ↔
          ¬ order.IsFilled other.heap ∧ order.IsLimitOrder := by
        rw [Order.IsFilled, Order.IsFilled, alike.heap.of_order known]
      apply Lockstep.branches same
      · intro _
        apply (insertOrder_alike alike known).bind
        intro _ _ _ alike
        exact Lockstep.returns _ alike
      · intro _
        exact Lockstep.returns _ alike

theorem dropCancelled_alike (alike : BookState.Alike scope left right)
    {side : OrderSide} {levels : List PriceLevel} {shrunk : PriceLevel}
    (within : LevelsWithin scope.ids levels) (orderId : String) :
    Lockstep (BookState.Alike scope)
      (dropCancelled side levels shrunk orderId)
      (dropCancelled side levels shrunk orderId) left right := by
  rw [dropCancelled]
  apply (Lockstep.modifies (alike.setLevels within)).bind
  intro _ _ _ alike
  apply (deleteOrderPrice_alike alike orderId).bind
  intro _ _ _ alike
  apply (removeOrderId_alike alike orderId).bind
  intro _ _ _ alike
  apply Lockstep.branches Iff.rfl
  · intro _
    apply Lockstep.modifies
    rw [← alike.book]
    exact alike.setLevels
      ((alike.within side).sublist List.erase_sublist)
  · intro _
    exact Lockstep.returns _ alike

/-- Cancelling an order reads the heap at the orders of the book. -/
theorem cancelOrder_alike (alike : BookState.Alike scope left right)
    (orderId : String) :
    Lockstep (BookState.Alike scope) (OrderBook.cancelOrder orderId)
      (OrderBook.cancelOrder orderId) left right := by
  rw [OrderBook.cancelOrder]
  apply Lockstep.reads
  rw [← alike.book]
  cases priced : left.book.orderPriceMap.get? orderId with
  | none => exact Lockstep.returns _ alike
  | some price =>
      have within := alike.within (left.book.sideOfPrice price)
      dsimp only
      cases found : (left.book.levels (left.book.sideOfPrice price)).find?
          fun level => level.price = price with
      | none => exact Lockstep.returns _ alike
      | some level =>
          have member := List.mem_of_find?_eq_some found
          dsimp only
          rw [removeOrder_alike alike.heap (within level member)]
          have sub := removeOrder_sub level right.heap orderId
          cases removed : level.removeOrder right.heap orderId with
          | mk shrunk order =>
              cases order with
              | none => exact Lockstep.returns _ alike
              | some order =>
                  rw [removed] at sub
                  refine (dropCancelled_alike alike ?_ orderId).bind
                    fun _ _ _ alike => Lockstep.returns _ alike
                  cases updates : Sequences.updateFirst
                      (fun other : PriceLevel => other.price = price)
                      (fun _ => shrunk)
                      (left.book.levels
                        (left.book.sideOfPrice price)) with
                  | none => exact within
                  | some updated =>
                      intro candidate inUpdated other inCandidate
                      rcases Sequences.mem_updateFirst _ updates
                          inUpdated with old | ⟨_, _, _, rfl⟩
                      · exact within candidate old other inCandidate
                      · exact within level member other
                          (sub other inCandidate)

/-- The program works on orders with ids of the set only. -/
def OrderBook.Local {α : Type} (ids : Set String) (program : BookM α) :
    Prop :=
  ∀ scope : Scope Heap, scope.ids = ids → ∀ left right,
    BookState.Alike scope left right →
      Lockstep (BookState.Alike scope) program program left right

theorem addOrder_local {ids : Set String} (known : order.orderId ∈ ids) :
    OrderBook.Local ids (addOrder order) := by
  rintro scope rfl left right alike
  exact addOrder_alike alike known

theorem cancelOrder_local (ids : Set String) (orderId : String) :
    OrderBook.Local ids (OrderBook.cancelOrder orderId) := by
  rintro scope rfl left right alike
  exact cancelOrder_alike alike orderId

end Programs

end InternTradingGame
