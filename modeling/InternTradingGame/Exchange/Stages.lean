import InternTradingGame.Exchange.BatchClearing

/-!
# Orders of any kind are added to a book

Some orders of one side, the takers, are added to a book one after another
and meet the queue of the other side.  A rank says what a taker offers and
what a maker asks for, so that market orders are takers like all others and
the queue may be ranked by more than its limits.  While the takers come by
rank, the filling of takers and makers stays fair, and it is exhausted in
the end.
-/

namespace InternTradingGame

open Effects Clearing

/-- The limit orders of a list which are not filled. -/
def leftIn (heap : Heap) (orders : List Order) : List Order :=
  orders.filter fun order => order.IsLimitOrder ∧ ¬ order.IsFilled heap

/-- Orders have joined a queue, each behind those of its price. -/
structure QueuedBehind (rested left queue : List Order) : Prop where
  own : queue.Perm (rested ++ left)
  kept : rested.Sublist queue
  junior : queue.Pairwise fun first second => second ∈ rested →
    first ∈ rested ∨ first.limit ≠ second.limit

/-- The remainder of an order joins the queue of its side. -/
theorem QueuedBehind.rest {rested left : List Order} {order : Order}
    {matched : BookState} (shape : BookShape matched.book)
    (queued : QueuedBehind rested left
      (matched.book.restingOn order.side))
    (new : order ∉ rested) :
    QueuedBehind rested (left ++ leftIn matched.heap [order])
      ((matched.rest order).book.restingOn order.side) := by
  by_cases rests : order.IsLimitOrder ∧ ¬ order.IsFilled matched.heap
  · have joins : leftIn matched.heap [order] = [order] :=
      List.filter_cons_of_pos (decide_eq_true rests)
    rw [joins]
    rcases (rest_restsLast shape rests.2 rests.1.price_eq).place with
      ⟨ahead, behind, before, after, _, worse⟩
    rw [before] at queued
    rw [after]
    rcases List.pairwise_append.mp queued.junior with
      ⟨first, second, between⟩
    constructor
    · rw [← List.append_assoc]
      exact List.perm_middle.trans
        ((queued.own.cons order).trans
          (List.perm_append_singleton _ _).symm)
    · exact queued.kept.trans
        ((List.Sublist.refl _).append (List.sublist_cons_self _ _))
    · refine List.pairwise_append.mpr
        ⟨first, List.pairwise_cons.mpr ⟨?_, second⟩, ?_⟩
      · intro other member _
        exact Or.inr (worse other member).ne
      · intro early earlyMember late lateMember
        rcases List.mem_cons.mp lateMember with rfl | inBehind
        · exact fun inRested => absurd inRested new
        · exact between early earlyMember late inBehind
  · have leaves : leftIn matched.heap [order] = [] :=
      List.filter_cons_of_neg (by simpa using rests)
    rw [leaves, List.append_nil, rest_restingOn_of_leaves]
    · exact queued
    · by_contra neither
      exact rests ⟨not_not.mp fun notLimit => neither (Or.inr notLimit),
        fun filled => neither (Or.inl filled)⟩

/-- Takers of one side, their rank, and the state they find. -/
structure Stage (P : Type*) where
  side : OrderSide
  rank : Order → P
  takers : List Order
  start : BookState

namespace Stage

variable {P : Type*}

/-- The queue which the takers meet. -/
def makers (stage : Stage P) : List Order :=
  stage.start.book.restingOn stage.side.opposite

/-- The queue which the takers join. -/
def rested (stage : Stage P) : List Order :=
  stage.start.book.restingOn stage.side

/-- What has been filled since the takers came. -/
def filled (stage : Stage P) (heap : Heap) : Order → ℚ :=
  filledSince stage.start.heap heap

variable [LinearOrder P]

/-- The takers can be added, and they come by rank. -/
structure Sides (stage : Stage P) : Prop where
  invariant : BookInv stage.start
  distinct : (stage.takers.map Order.orderId).Nodup
  ofSide : ∀ taker ∈ stage.takers, taker.side = stage.side
  addable : ∀ taker ∈ stage.takers, Addable taker stage.start
  fillable : ∀ taker ∈ stage.takers, taker.Fillable stage.start.heap
  refuses : ∀ taker ∈ stage.takers, ∀ maker ∈ stage.makers,
    (taker.Refuses maker.limit ↔ stage.rank taker < stage.rank maker)
  bestTakers : stage.takers.Pairwise fun first second =>
    stage.rank second ≤ stage.rank first
  bestMakers : stage.makers.Pairwise fun first second =>
    stage.rank first ≤ stage.rank second

/-- What every trade keeps, when some takers are done. -/
structure Meeting (stage : Stage P) (done : List Order)
    (state : BookState) : Prop where
  fair : Fair stage.rank stage.start.heap.remaining
    (stage.filled state.heap) stage.takers stage.makers
  others : ∀ order,
    order.orderId ∉ (stage.takers ++ stage.makers).map Order.orderId →
      state.heap.remaining order = stage.start.heap.remaining order
  settled : ∀ taker ∈ done, ¬ taker.IsFilled state.heap →
    ∀ maker ∈ stage.makers, ¬ maker.IsFilled state.heap →
      stage.rank taker < stage.rank maker
  queue : state.book.restingOn stage.side.opposite =
    unfilledIn state.heap stage.makers

variable {stage : Stage P} {done later : List Order}
  {state reached : BookState} {order other : Order} {fill : Fill}

namespace Sides

/-- Takers and makers have different ids. -/
theorem meeting (sides : stage.Sides) :
    ((stage.takers ++ stage.makers).map Order.orderId).Nodup := by
  rw [List.map_append]
  refine List.nodup_append.mpr ⟨sides.distinct, ?_, ?_⟩
  · exact sides.invariant.shape.distinct.sublist
      ((OrderBook.restingOn_sublist _).map _)
  · intro orderId inTakers other inMakers equal
    rcases List.mem_map.mp inTakers with ⟨taker, takerMember, rfl⟩
    rcases List.mem_map.mp inMakers with ⟨maker, makerMember, rfl⟩
    apply (sides.addable taker takerMember).absent
    rw [equal]
    exact sides.invariant.shape.contains_orderId
      (OrderBook.mem_resting_of_mem makerMember)

/-- Nobody has been filled when the takers come. -/
theorem start (sides : stage.Sides) : stage.Meeting [] stage.start where
  fair := by
    apply Fair.start
    · intro order member
      rcases List.mem_append.mp member with taker | maker
      · exact (sides.fillable order taker).nonnegative
      · exact (sides.invariant.quantities.positive order
          (OrderBook.mem_resting_of_mem maker)).le
    · exact fun order _ => sub_self _
  others := fun _ _ => rfl
  settled := by
    intro taker member
    cases member
  queue := by
    refine (List.filter_eq_self.mpr ?_).symm
    intro order member
    exact decide_eq_true (sides.invariant.quantities.unfilled
      (OrderBook.mem_resting_of_mem member))

end Sides

/-! ## One trade -/

namespace Meeting

/-- The next maker is the first one which is not filled. -/
theorem next_queue (sides : stage.Sides) (taker : order ∈ stage.takers)
    (meeting : stage.Meeting done state)
    (next : fill.Next order state) :
    fill.matching ::
        (fill.queue ++ fill.deeper.flatMap PriceLevel.orders) =
      unfilledIn state.heap stage.makers := by
  rw [← next.restingOn, sides.ofSide order taker]
  exact meeting.queue

theorem maker (sides : stage.Sides) (taker : order ∈ stage.takers)
    (meeting : stage.Meeting done state) (next : fill.Next order state) :
    fill.matching ∈ stage.makers ∧
      ¬ fill.matching.IsFilled state.heap := by
  apply mem_unfilledIn.mp
  rw [← meeting.next_queue sides taker next]
  exact List.mem_cons_self

/-- The next trade crosses, by rank. -/
theorem crosses (sides : stage.Sides) (taker : order ∈ stage.takers)
    (meeting : stage.Meeting done state) (next : fill.Next order state)
    (shape : BookShape state.book) :
    stage.rank fill.matching ≤ stage.rank order := by
  apply not_lt.mp
  rw [← sides.refuses order taker fill.matching
    (meeting.maker sides taker next).1, next.matching_limit shape]
  exact next.accepted

/-- The takers of better ranks have been filled. -/
theorem better_takers (sides : stage.Sides)
    (split : stage.takers = done ++ order :: later)
    (meeting : stage.Meeting done state) (next : fill.Next order state)
    (shape : BookShape state.book) (member : other ∈ stage.takers)
    (better : stage.rank order < stage.rank other) :
    other.IsFilled state.heap := by
  have taker : order ∈ stage.takers := by
    rw [split]
    exact List.mem_append_right _ List.mem_cons_self
  by_contra unfilled
  rcases meeting.maker sides taker next with ⟨maker, makerOpen⟩
  have isDone : other ∈ done := by
    have sorted := sides.bestTakers
    rw [split] at sorted member
    rcases List.mem_append.mp member with inDone | behind
    · exact inDone
    · rcases List.mem_cons.mp behind with rfl | inLater
      · exact absurd better (lt_irrefl _)
      · have worse := (List.pairwise_cons.mp
          (List.pairwise_append.mp sorted).2.1).1 other inLater
        exact absurd better (not_lt.mpr worse)
  have before := meeting.settled other isDone unfilled fill.matching maker
    makerOpen
  exact lt_irrefl _ (better.trans
    (before.trans_le (meeting.crosses sides taker next shape)))

/-- The makers of better ranks have been filled. -/
theorem better_makers (sides : stage.Sides)
    (taker : order ∈ stage.takers) (meeting : stage.Meeting done state)
    (next : fill.Next order state) (member : other ∈ stage.makers)
    (better : stage.rank other < stage.rank fill.matching) :
    other.IsFilled state.heap := by
  by_contra unfilled
  rcases best_of_queue (meeting.next_queue sides taker next)
    sides.bestMakers member unfilled with rfl | behind
  · exact lt_irrefl _ better
  · exact absurd better (not_lt.mpr behind)

/-- One trade of the taker whose turn it is. -/
theorem step (sides : stage.Sides)
    (split : stage.takers = done ++ order :: later)
    (meeting : stage.Meeting done state) (shape : BookShape state.book)
    (absent : order.orderId ∉ state.book.orderIds)
    (next : fill.Next order state) :
    stage.Meeting done (state.afterFill order fill) := by
  have taker : order ∈ stage.takers := by
    rw [split]
    exact List.mem_append_right _ List.mem_cons_self
  rcases meeting.maker sides taker next with ⟨maker, makerOpen⟩
  have settles := next.settles shape absent
  have makerIds : (stage.makers.map Order.orderId).Nodup :=
    sides.meeting.sublist ((List.sublist_append_right _ _).map _)
  have otherMakers : ∀ other ∈ stage.makers, other ≠ fill.matching →
      (state.afterFill order fill).heap.remaining other =
        state.heap.remaining other :=
    fun other member different => settles.unchanged
      (orderId_apart sides.meeting taker member).symm
      (orderId_ne makerIds member maker different)
  constructor
  · exact settles.fair meeting.fair sides.meeting taker maker
      next.quantity_le_order next.quantity_le_matching
      (meeting.crosses sides taker next shape)
      (fun other member better =>
        meeting.better_takers sides split next shape member better)
      (fun other member better =>
        meeting.better_makers sides taker next member better)
  · intro other outside
    rw [settles.others taker maker outside]
    exact meeting.others other outside
  · intro other isDone open_ otherMaker makerMember otherOpen
    have otherTaker : other ∈ stage.takers := by
      rw [split]
      exact List.mem_append_left _ isDone
    have different : other ≠ order := by
      have nodup := List.Nodup.of_map _ sides.distinct
      rw [split] at nodup
      exact (List.nodup_append.mp nodup).2.2 _ isDone _
        List.mem_cons_self
    rw [Order.IsFilled, settles.unchanged
      (orderId_ne sides.distinct otherTaker taker different)
      (orderId_apart sides.meeting otherTaker maker)] at open_
    apply meeting.settled other isDone open_ otherMaker makerMember
    by_cases same : otherMaker = fill.matching
    · rw [same]
      exact makerOpen
    · rw [Order.IsFilled, otherMakers otherMaker makerMember same]
        at otherOpen
      exact otherOpen
  · rw [← unlessFilled_eq (List.Nodup.of_map _ makerIds)
      (meeting.next_queue sides taker next) otherMakers,
      ← sides.ofSide order taker, next.restingOn_after, unlessFilled]
    have completes : fill.Completes state.heap ↔
        fill.matching.IsFilled (state.afterFill order fill).heap := by
      rw [Order.IsFilled, Fill.Next.remaining_matching, sub_eq_zero]
      rfl
    simp only [completes, next.restingOn]

/-- A taker which is matched meets no maker which is left. -/
theorem finish (sides : stage.Sides) (taker : order ∈ stage.takers)
    (meeting : stage.Meeting done state) (shape : BookShape state.book)
    (finished : MatchingDone order state) :
    stage.Meeting (done ++ [order]) state where
  fair := meeting.fair
  others := meeting.others
  queue := meeting.queue
  settled := by
    intro other member open_ maker makerMember makerOpen
    rcases List.mem_append.mp member with before | last
    · exact meeting.settled other before open_ maker makerMember
        makerOpen
    · rcases List.mem_singleton.mp last with rfl
      have waiting : maker ∈
          state.book.restingOn other.side.opposite := by
        rw [sides.ofSide other taker, meeting.queue]
        exact mem_unfilledIn.mpr ⟨makerMember, makerOpen⟩
      rcases OrderBook.mem_restingOn_iff.mp waiting with
        ⟨level, levelMember, inLevel⟩
      have refuses := finished.refuses shape open_ level levelMember
      rw [← limit_of_mem shape levelMember inLevel] at refuses
      exact (sides.refuses other taker maker makerMember).mp refuses

/-- Only the heap and the queue of the makers matter. -/
theorem congr (meeting : stage.Meeting done state)
    (heap : reached.heap = state.heap)
    (queue : reached.book.restingOn stage.side.opposite =
      state.book.restingOn stage.side.opposite) :
    stage.Meeting done reached where
  fair := by
    rw [heap]
    exact meeting.fair
  others := by
    rw [heap]
    exact meeting.others
  settled := by
    rw [heap]
    exact meeting.settled
  queue := by
    rw [queue, heap]
    exact meeting.queue

end Meeting

/-! ## One taker after another -/

/-- Some takers are done, and the later ones still wait. -/
structure Reached (stage : Stage P) (done later : List Order)
    (state : BookState) : Prop where
  meeting : stage.Meeting done state
  invariant : BookInv state
  named : state.book.instrumentId = stage.start.book.instrumentId
  fresh : ∀ taker ∈ later, Addable taker state ∧
    state.heap.remaining taker = stage.start.heap.remaining taker
  own : QueuedBehind stage.rested (leftIn state.heap done)
    (state.book.restingOn stage.side)

/-- No taker has come yet. -/
theorem Sides.initial (sides : stage.Sides) :
    stage.Reached [] stage.takers stage.start where
  meeting := sides.start
  invariant := sides.invariant
  named := rfl
  fresh := fun taker member => ⟨sides.addable taker member, rfl⟩
  own := by
    constructor
    · rw [leftIn, List.filter_nil, List.append_nil]
      exact List.Perm.refl _
    · exact List.Sublist.refl _
    · apply List.pairwise_of_forall_mem_list
      exact fun first member _ _ _ => Or.inl member

/-- A trade of a taker and one of the makers. -/
def MadeBy (stage : Stage P) (taker : Order) (trade : Trade) : Prop :=
  ∃ maker ∈ stage.makers, ∀ orderId,
    trade.Names orderId ↔
      taker.orderId = orderId ∨ maker.orderId = orderId

namespace Reached

/-- The takers which are not the one whose turn it is are not named. -/
theorem unnamed (sides : stage.Sides) {trade : Trade}
    (taker : order ∈ stage.takers) (made : stage.MadeBy order trade)
    (member : other ∈ stage.takers) (different : other ≠ order) :
    ¬ trade.Names other.orderId := by
  rcases made with ⟨maker, makerMember, names⟩
  rw [names, not_or]
  exact ⟨orderId_ne sides.distinct taker member different.symm,
    (orderId_apart sides.meeting member makerMember).symm⟩

/-- A taker is added, whatever kind of order it is. -/
theorem add (sides : stage.Sides)
    (split : stage.takers = done ++ order :: later)
    (sofar : stage.Reached done (order :: later) state) :
    ∃ trades after, OrderBook.addOrder order state = .ok trades after ∧
      stage.Reached (done ++ [order]) later after ∧
      after.heap.trades = state.heap.trades ++ trades ∧
      (∀ orderId, after.heap.remainingQuantity orderId =
        state.heap.remainingQuantity orderId -
          tradedQuantity orderId trades) ∧
      ∀ trade ∈ trades, stage.MadeBy order trade := by
  have inTakers : ∀ other ∈ done ++ order :: later,
      other ∈ stage.takers := fun other member => split ▸ member
  have taker := inTakers order
    (List.mem_append_right _ List.mem_cons_self)
  have nodup := List.Nodup.of_map _ sides.distinct
  rw [split] at nodup
  rcases sofar.fresh order List.mem_cons_self with ⟨addable, untouched⟩
  rcases addOrder_kept sofar.invariant
      ((sides.fillable order taker).congr untouched) addable
      (fun _ reached => stage.Meeting done reached) sofar.meeting
      (fun _ _ _ shape absent meeting next =>
        meeting.step sides split shape absent next) with
    ⟨trades, matched, evaluates, served, meeting⟩
  have shape := served.sound.invariant.shape
  have changes := served.sound.changes
  have made : ∀ trade ∈ trades, stage.MadeBy order trade := by
    intro trade member
    rcases changes.parties trade member with
      ⟨maker, resting, _, _, _, tradeOf⟩
    rw [sides.ofSide order taker, sofar.meeting.queue] at resting
    exact ⟨maker, (mem_unfilledIn.mp resting).1, tradeOf.names_iff⟩
  have others : ∀ other ∈ stage.takers, other ≠ order →
      matched.heap.remaining other = state.heap.remaining other := by
    intro other member different
    rw [Heap.remaining, changes.accounts, tradedQuantity_eq_zero _
      fun trade inTrades =>
        unnamed sides taker (made trade inTrades) member different,
      sub_zero]
    rfl
  have leftBefore : leftIn matched.heap done = leftIn state.heap done := by
    apply List.filter_congr
    intro other member
    have different : other ≠ order :=
      (List.nodup_append.mp nodup).2.2 _ member _ List.mem_cons_self
    apply decide_eq_decide.mpr
    rw [Order.IsFilled, Order.IsFilled, others other
      (inTakers other (List.mem_append_left _ member)) different]
  have ownQueue : matched.book.restingOn stage.side =
      state.book.restingOn stage.side := by
    rw [← sides.ofSide order taker]
    exact OrderBook.restingOn_congr changes.own
  refine ⟨trades, matched.rest order, evaluates, ?_, ?_, ?_, made⟩
  · constructor
    · apply (meeting.finish sides taker shape served.sound.done).congr
      · exact rest_heap
      · rw [← sides.ofSide order taker]
        exact rest_restingOn_opposite
    · exact served.sound.rest_keeps addable
    · rw [rest_instrumentId, changes.instrument]
      exact sofar.named
    · intro other member
      have different : other ≠ order := by
        rintro rfl
        exact (List.nodup_cons.mp
          (List.nodup_append.mp nodup).2.1).1 member
      have otherTaker := inTakers other
        (List.mem_append_right _ (List.mem_cons_of_mem _ member))
      rcases sofar.fresh other (List.mem_cons_of_mem _ member) with
        ⟨waits, unchanged⟩
      constructor
      · exact addable_rest served sofar.invariant.shape addable waits
          (orderId_ne sides.distinct otherTaker taker different)
      · rw [rest_heap, others other otherTaker different]
        exact unchanged
    · have queued := sofar.own
      rw [← ownQueue, ← leftBefore, ← sides.ofSide order taker] at queued
      have left : leftIn matched.heap (done ++ [order]) =
          leftIn matched.heap done ++ leftIn matched.heap [order] :=
        List.filter_append ..
      rw [rest_heap, left, ← sides.ofSide order taker]
      apply queued.rest shape
      intro inRested
      exact (sides.addable order taker).absent
        (sides.invariant.shape.contains_orderId
          (OrderBook.mem_resting_of_mem inRested))
  · rw [rest_heap]
    exact changes.recorded
  · rw [rest_heap]
    exact changes.accounts

/-- An order which is neither taker nor maker is as it was. -/
theorem untouched (reached : stage.Reached done later state)
    (sides : stage.Sides) (addable : Addable order stage.start)
    (apart : ∀ taker ∈ stage.takers, order.orderId ≠ taker.orderId) :
    state.heap.remaining order = stage.start.heap.remaining order := by
  apply reached.meeting.others
  intro inBoth
  rcases List.mem_map.mp inBoth with ⟨other, member, equal⟩
  rcases List.mem_append.mp member with taker | maker
  · exact apart other taker equal.symm
  · apply addable.absent
    rw [← equal]
    exact sides.invariant.shape.contains_orderId
      (OrderBook.mem_resting_of_mem maker)

/-- The queue which the takers join keeps what it has. -/
theorem rested_untouched (reached : stage.Reached done later state)
    (sides : stage.Sides) (member : order ∈ stage.rested) :
    state.heap.remaining order = stage.start.heap.remaining order := by
  have resting : order ∈ stage.start.book.resting :=
    OrderBook.mem_resting_of_mem member
  apply reached.meeting.others
  intro inBoth
  rcases List.mem_map.mp inBoth with ⟨other, otherMember, equal⟩
  rcases List.mem_append.mp otherMember with taker | maker
  · exact sides.invariant.shape.not_mem_resting
      (sides.addable other taker).absent order resting equal.symm
  · have distinct := sides.invariant.shape.distinct
    have queues := (List.Perm.map Order.orderId
      (@OrderBook.resting_perm _ stage.side)).nodup_iff.mp distinct
    exact orderId_apart queues member maker equal.symm

/-- Once all takers are done nobody who is left meets anybody. -/
theorem exhausted
    (reached : stage.Reached stage.takers [] state) :
    Exhausted stage.rank stage.start.heap.remaining
      (stage.filled state.heap) stage.takers stage.makers := by
  intro taker takerMember maker makerMember takerOpen makerOpen
  have unfilled : ∀ {order}, stage.filled state.heap order <
      stage.start.heap.remaining order → ¬ order.IsFilled state.heap :=
    fun left filled => left.ne (filled_iff.mpr filled)
  exact reached.meeting.settled taker takerMember (unfilled takerOpen)
    maker makerMember (unfilled makerOpen)

/-- Only takers have joined the book. -/
theorem mem_resting (reached : stage.Reached done later state)
    (member : order ∈ state.book.resting) :
    order ∈ stage.start.book.resting ∨ order ∈ done := by
  rcases (@OrderBook.mem_resting_iff _ stage.side _).mp member with
    own | opposite
  · rcases List.mem_append.mp (reached.own.own.mem_iff.mp own) with
      before | joined
    · exact Or.inl (OrderBook.mem_resting_of_mem before)
    · exact Or.inr (List.mem_filter.mp joined).1
  · rw [reached.meeting.queue] at opposite
    exact Or.inl
      (OrderBook.mem_resting_of_mem (mem_unfilledIn.mp opposite).1)

/-- An order which could be added before can be added now. -/
theorem addable (reached : stage.Reached done later state)
    (sides : stage.Sides) (addable : Addable order stage.start)
    (apart : ∀ taker ∈ done, order.orderId ≠ taker.orderId) :
    Addable order state where
  instrument := addable.instrument.trans reached.named.symm
  absent := by
    intro present
    rcases (reached.invariant.shape.ids _).mp present with
      ⟨candidate, member, equal⟩
    rcases reached.mem_resting member with before | taker
    · apply addable.absent
      rw [← equal]
      exact sides.invariant.shape.contains_orderId before
    · exact apart candidate taker equal.symm

end Reached

end Stage

end InternTradingGame
