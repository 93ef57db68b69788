import InternTradingGame.OrderBook.Filling

/-!
# Orders which take from a book one after another

The takers are added to a book in the order of their prices, the best one
first, and trade with the makers which rest on the other side.  Whatever the
makers leave of a taker rests, and no maker meets it any more.  So what the
takers take is a fair filling, which is exhausted in the end.

Other orders may rest beside the makers as long as no taker accepts their
prices: the strangers.
-/

namespace InternTradingGame

open Clearing

/-! ## Prices seen from one side -/

/-- What an order offers to its side: more is better. -/
def OrderSide.worth (side : OrderSide) (order : Order) : ℚ :=
  match side with
  | .buy => order.limit
  | .sell => -order.limit

namespace OrderSide

variable {side : OrderSide} {first second taker : Order}

theorem better_limit_iff :
    side.Better first.limit second.limit ↔
      side.worth second < side.worth first := by
  cases side with
  | buy => exact Iff.rfl
  | sell => exact neg_lt_neg_iff.symm

/-- A taker refuses the prices which ask for more than it offers. -/
theorem refuses_limit_iff (isLimit : taker.IsLimitOrder) :
    taker.Refuses first.limit ↔
      taker.side.worth taker < taker.side.worth first := by
  rw [taker.refuses_iff, ← better_limit_iff]
  constructor
  · rintro ⟨limit, priced, better⟩
    rcases Option.some.inj (isLimit.price_eq.symm.trans priced) with rfl
    exact better
  · exact fun better => ⟨_, isLimit.price_eq, better⟩

end OrderSide

/-! ## The next trade of the matching loop -/

namespace Fill.Next

variable {fill : Fill} {order other : Order} {state : BookState}

theorem settles (next : fill.Next order state)
    (shape : BookShape state.book)
    (absent : order.orderId ∉ state.book.orderIds) :
    Settles fill.trade order fill.matching state.heap
      (state.afterFill order fill).heap where
  recorded := rfl
  remaining := by
    intro candidate
    have accounts :=
      Matched.afterFill_accounts next shape absent candidate.orderId
    rw [tradedQuantity_singleton] at accounts
    rw [Heap.remaining, accounts]
    congr 1
    simp only [next.tradeOf.names_iff, eq_comm]

theorem matching_limit (next : fill.Next order state)
    (shape : BookShape state.book) :
    fill.matching.limit = fill.best.price :=
  limit_of_mem shape next.mem_levels next.mem_orders

/-- The loop trades with a best order of the other side. -/
theorem matching_best (next : fill.Next order state)
    (shape : BookShape state.book)
    (member : other ∈ state.book.restingOn order.side.opposite) :
    order.side.worth fill.matching ≤ order.side.worth other := by
  rcases OrderBook.mem_restingOn_iff.mp member with
    ⟨level, levelMember, inLevel⟩
  have limit := limit_of_mem shape levelMember inLevel
  have sorted := (shape.side order.side.opposite).sorted
  rw [next.side] at sorted levelMember
  apply not_lt.mp
  rw [← OrderSide.better_limit_iff, limit, next.matching_limit shape]
  rcases List.mem_cons.mp levelMember with rfl | inDeeper
  · exact fun better => better.ne rfl
  · have worse := (List.pairwise_cons.mp sorted).1 level inDeeper
    exact (OrderSide.better_opposite.mp worse).asymm

/-- The others which rest on the other side stay there. -/
theorem stays (next : fill.Next order state)
    (member : other ∈ state.book.restingOn order.side.opposite)
    (left : other ≠ fill.matching ∨ ¬ fill.Completes state.heap) :
    other ∈
      (state.afterFill order fill).book.restingOn
        order.side.opposite := by
  rw [next.restingOn_after]
  split_ifs with completes
  · rw [next.restingOn] at member
    rcases List.mem_cons.mp member with equal | behind
    · rcases left with different | partly
      · exact absurd equal different
      · exact absurd completes partly
    · exact behind
  · exact member

end Fill.Next

/-! ## Takers, makers and strangers -/

/-- Who takes part, and what the orders have left at the start. -/
structure TakingSides (side : OrderSide)
    (takers makers strangers : List Order) (base : Heap) : Prop where
  distinct :
    ((takers ++ (makers ++ strangers)).map Order.orderId).Nodup
  limits : ∀ taker ∈ takers, taker.IsLimitOrder ∧ taker.side = side
  sorted : takers.Pairwise fun first second =>
    side.worth second ≤ side.worth first
  fillable : ∀ taker ∈ takers, taker.Fillable base
  makers : ∀ maker ∈ makers, 0 ≤ base.remaining maker
  apart : ∀ stranger ∈ strangers, ∀ taker ∈ takers,
    ¬ taker.IsFilled base → side.worth taker < side.worth stranger

/-- What every trade keeps, when some takers are done. -/
structure Taking (side : OrderSide)
    (takers makers strangers done : List Order) (base : Heap)
    (state : BookState) : Prop where
  filled : FilledFairly base side.worth takers makers state.heap
  settled : ∀ taker ∈ done, ¬ taker.IsFilled state.heap →
    ∀ maker ∈ makers, ¬ maker.IsFilled state.heap →
      side.worth taker < side.worth maker
  waiting : ∀ other ∈ makers ++ strangers,
    ¬ other.IsFilled state.heap →
      other ∈ state.book.restingOn side.opposite
  queue : ∀ other ∈ state.book.restingOn side.opposite,
    other ∈ makers ++ strangers

section Step

variable {side : OrderSide}
  {takers makers strangers done later : List Order} {base : Heap}
  {state : BookState} {order other : Order} {fill : Fill}

namespace TakingSides

theorem trading
    (sides : TakingSides side takers makers strangers base) :
    ((takers ++ makers).map Order.orderId).Nodup :=
  sides.distinct.sublist
    (((List.Sublist.refl _).append
      (List.sublist_append_left _ _)).map _)

theorem resting
    (sides : TakingSides side takers makers strangers base) :
    ((makers ++ strangers).map Order.orderId).Nodup :=
  sides.distinct.sublist ((List.sublist_append_right _ _).map _)

/-- A better taker which is still unfilled has had its turn. -/
theorem mem_done
    (sides : TakingSides side takers makers strangers base)
    (split : unfilledIn base takers = done ++ order :: later)
    (member : other ∈ takers) (unfilled : ¬ other.IsFilled base)
    (better : side.worth order < side.worth other) : other ∈ done := by
  have inQueue : other ∈ done ++ order :: later := by
    rw [← split]
    exact mem_unfilledIn.mpr ⟨member, unfilled⟩
  have sorted : (done ++ order :: later).Pairwise fun first second =>
      side.worth second ≤ side.worth first := by
    rw [← split]
    exact sides.sorted.sublist List.filter_sublist
  rcases List.mem_append.mp inQueue with inDone | behind
  · exact inDone
  · rcases List.mem_cons.mp behind with rfl | inLater
    · exact absurd better (lt_irrefl _)
    · have worse := (List.pairwise_cons.mp
        (List.pairwise_append.mp sorted).2.1).1 other inLater
      exact absurd better (not_lt.mpr worse)

theorem mem_takers
    (split : unfilledIn base takers = done ++ order :: later)
    (member : other ∈ done ++ order :: later) :
    other ∈ takers ∧ ¬ other.IsFilled base := by
  rw [← split] at member
  exact mem_unfilledIn.mp member

end TakingSides

namespace Taking

/-- The loop trades with makers only. -/
theorem mem_makers
    (sides : TakingSides side takers makers strangers base)
    (taking : Taking side takers makers strangers done base state)
    (taker : order ∈ takers) (unfilled : ¬ order.IsFilled base)
    (next : fill.Next order state) (shape : BookShape state.book) :
    fill.matching ∈ makers := by
  rcases sides.limits order taker with ⟨isLimit, rfl⟩
  have inQueue : fill.matching ∈
      state.book.restingOn order.side.opposite := by
    rw [next.restingOn]
    exact List.mem_cons_self
  rcases List.mem_append.mp (taking.queue _ inQueue) with
    inMakers | stranger
  · exact inMakers
  · have beyond := sides.apart _ stranger order taker unfilled
    have refuses := (OrderSide.refuses_limit_iff isLimit).mpr beyond
    rw [next.matching_limit shape] at refuses
    exact absurd refuses next.accepted

theorem matching_unfilled (next : fill.Next order state) :
    ¬ fill.matching.IsFilled state.heap := by
  intro filled
  have positive := fill.trade.quantity_positive.trans_le
    next.quantity_le_matching
  exact positive.ne' filled

/-- The loop trades only at prices the taker accepts. -/
theorem crosses
    (sides : TakingSides side takers makers strangers base)
    (taker : order ∈ takers) (next : fill.Next order state)
    (shape : BookShape state.book) :
    side.worth fill.matching ≤ side.worth order := by
  rcases sides.limits order taker with ⟨isLimit, rfl⟩
  apply not_lt.mp
  rw [← OrderSide.refuses_limit_iff isLimit, next.matching_limit shape]
  exact next.accepted

/-- The takers which offer more have been filled. -/
theorem better_takers
    (sides : TakingSides side takers makers strangers base)
    (split : unfilledIn base takers = done ++ order :: later)
    (taking : Taking side takers makers strangers done base state)
    (shape : BookShape state.book) (next : fill.Next order state)
    (member : other ∈ takers)
    (better : side.worth order < side.worth other) :
    other.IsFilled state.heap := by
  have inQueue : order ∈ done ++ order :: later :=
    List.mem_append_right _ List.mem_cons_self
  rcases TakingSides.mem_takers split inQueue with ⟨taker, unfilled⟩
  by_contra open_
  have isDone := sides.mem_done split member
    (taking.filled.unfilled_before (List.mem_append_left _ member)
      open_) better
  have before := taking.settled other isDone open_ fill.matching
    (taking.mem_makers sides taker unfilled next shape)
    (matching_unfilled next)
  exact lt_irrefl _
    (better.trans (before.trans_le (crosses sides taker next shape)))

/-- The makers which ask for less have been filled. -/
theorem better_makers
    (sides : TakingSides side takers makers strangers base)
    (taking : Taking side takers makers strangers done base state)
    (taker : order ∈ takers) (next : fill.Next order state)
    (shape : BookShape state.book) (member : other ∈ makers)
    (better : side.worth other < side.worth fill.matching) :
    other.IsFilled state.heap := by
  rcases sides.limits order taker with ⟨_, rfl⟩
  by_contra open_
  have best := next.matching_best shape (taking.waiting other
    (List.mem_append_left _ member) open_)
  exact absurd better (not_lt.mpr best)

/-- One trade of a taker whose turn it is. -/
theorem step (sides : TakingSides side takers makers strangers base)
    (split : unfilledIn base takers = done ++ order :: later)
    (taking : Taking side takers makers strangers done base state)
    (shape : BookShape state.book)
    (absent : order.orderId ∉ state.book.orderIds)
    (next : fill.Next order state) :
    Taking side takers makers strangers done base
      (state.afterFill order fill) := by
  have inQueue : order ∈ done ++ order :: later :=
    List.mem_append_right _ List.mem_cons_self
  rcases TakingSides.mem_takers split inQueue with ⟨taker, unfilled⟩
  have maker := taking.mem_makers sides taker unfilled next shape
  have settles := next.settles shape absent
  have nodup : (done ++ order :: later).Nodup := by
    rw [← split]
    exact (List.Nodup.of_map _ (sides.distinct.sublist
      ((List.sublist_append_left _ _).map _))).filter _
  rcases sides.limits order taker with ⟨_, rfl⟩
  have stillMaker : ∀ other ∈ makers ++ strangers,
      ¬ other.IsFilled (state.afterFill order fill).heap →
        ¬ other.IsFilled state.heap := by
    intro other member open_
    by_cases same : other = fill.matching
    · rw [same]
      exact matching_unfilled next
    · rw [Order.IsFilled, settles.unchanged
        (orderId_apart sides.distinct taker member).symm
        (orderId_ne sides.resting member
          (List.mem_append_left _ maker) same)] at open_
      exact open_
  constructor
  · apply taking.filled.step sides.trading settles taker maker
      next.quantity_le_order next.quantity_le_matching
      (crosses sides taker next shape)
    · exact fun other member better =>
        taking.better_takers sides split shape next member better
    · exact fun other member better =>
        taking.better_makers sides taker next shape member better
    · exact next.tradeOf.atPrice.trans (next.matching_limit shape).symm
  · intro other isDone open_ otherMaker makerMember makerOpen
    have otherTaker := (TakingSides.mem_takers split
      (List.mem_append_left _ isDone)).1
    have different : other ≠ order := by
      rintro rfl
      exact (List.nodup_append.mp nodup).2.2 _ isDone _
        List.mem_cons_self rfl
    have takerIds : (takers.map Order.orderId).Nodup :=
      sides.distinct.sublist ((List.sublist_append_left _ _).map _)
    rw [Order.IsFilled, settles.unchanged
      (orderId_ne takerIds otherTaker taker different)
      (orderId_apart sides.trading otherTaker maker)] at open_
    exact taking.settled other isDone open_ otherMaker makerMember
      (stillMaker _ (List.mem_append_left _ makerMember) makerOpen)
  · intro other member open_
    apply next.stays (taking.waiting other member
      (stillMaker other member open_))
    by_cases same : other = fill.matching
    · right
      intro completes
      apply open_
      rw [same]
      exact Fill.Next.remaining_matching.trans
        (sub_eq_zero.mpr completes)
    · exact Or.inl same
  · intro other member
    apply taking.queue other
    rw [next.restingOn_after] at member
    split_ifs at member
    · rw [next.restingOn]
      exact List.mem_cons_of_mem _ member
    · exact member

/-- Only the heap and the other side matter. -/
theorem congr {reached : BookState}
    (taking : Taking side takers makers strangers done base state)
    (heap : reached.heap = state.heap)
    (queue : reached.book.restingOn side.opposite =
      state.book.restingOn side.opposite) :
    Taking side takers makers strangers done base reached where
  filled := by
    rw [heap]
    exact taking.filled
  settled := by
    rw [heap]
    exact taking.settled
  waiting := by
    rw [heap, queue]
    exact taking.waiting
  queue := by
    rw [queue]
    exact taking.queue

/-- Once a taker is matched no maker which is left meets it. -/
theorem finish (sides : TakingSides side takers makers strangers base)
    (taking : Taking side takers makers strangers done base state)
    (taker : order ∈ takers) (shape : BookShape state.book)
    (finished : MatchingDone order state) :
    Taking side takers makers strangers (done ++ [order]) base
      state where
  filled := taking.filled
  waiting := taking.waiting
  queue := taking.queue
  settled := by
    intro other member open_ maker makerMember makerOpen
    rcases List.mem_append.mp member with before | last
    · exact taking.settled other before open_ maker makerMember makerOpen
    · rcases List.mem_singleton.mp last with rfl
      rcases sides.limits other taker with ⟨isLimit, rfl⟩
      rcases OrderBook.mem_restingOn_iff.mp (taking.waiting maker
          (List.mem_append_left _ makerMember) makerOpen) with
        ⟨level, levelMember, inLevel⟩
      have refuses := finished.refuses shape open_ level levelMember
      rw [← limit_of_mem shape levelMember inLevel] at refuses
      exact (OrderSide.refuses_limit_iff isLimit).mp refuses

end Taking

end Step

/-! ## One taker after another -/

/-- A trade of a taker whose turn it is, and what holds before it. -/
structure TakerTrade (side : OrderSide)
    (takers makers strangers : List Order) (base : Heap) (order : Order)
    (fill : Fill) (state : BookState) : Prop where
  inTurn : ∃ done later,
    unfilledIn base takers = done ++ order :: later ∧
      Taking side takers makers strangers done base state
  shape : BookShape state.book
  instrument : order.instrumentId = state.book.instrumentId
  absent : order.orderId ∉ state.book.orderIds
  next : fill.Next order state

namespace TakerTrade

variable {side : OrderSide} {takers makers strangers : List Order}
  {base : Heap} {state : BookState} {order other : Order} {fill : Fill}

theorem taker
    (trade : TakerTrade side takers makers strangers base order fill
      state) : order ∈ takers ∧ ¬ order.IsFilled base := by
  rcases trade.inTurn with ⟨done, later, split, _⟩
  exact TakingSides.mem_takers split
    (List.mem_append_right _ List.mem_cons_self)

theorem maker (sides : TakingSides side takers makers strangers base)
    (trade : TakerTrade side takers makers strangers base order fill
      state) : fill.matching ∈ makers := by
  rcases trade.inTurn with ⟨_, _, _, taking⟩
  exact taking.mem_makers sides trade.taker.1 trade.taker.2 trade.next
    trade.shape

theorem settles
    (trade : TakerTrade side takers makers strangers base order fill
      state) :
    Settles fill.trade order fill.matching state.heap
      (state.afterFill order fill).heap :=
  trade.next.settles trade.shape trade.absent

theorem crosses (sides : TakingSides side takers makers strangers base)
    (trade : TakerTrade side takers makers strangers base order fill
      state) :
    side.worth fill.matching ≤ side.worth order :=
  Taking.crosses sides trade.taker.1 trade.next trade.shape

theorem better_takers
    (sides : TakingSides side takers makers strangers base)
    (trade : TakerTrade side takers makers strangers base order fill
      state)
    (member : other ∈ takers)
    (better : side.worth order < side.worth other) :
    other.IsFilled state.heap := by
  rcases trade.inTurn with ⟨_, _, split, taking⟩
  exact taking.better_takers sides split trade.shape trade.next member
    better

theorem better_makers
    (sides : TakingSides side takers makers strangers base)
    (trade : TakerTrade side takers makers strangers base order fill
      state)
    (member : other ∈ makers)
    (better : side.worth other < side.worth fill.matching) :
    other.IsFilled state.heap := by
  rcases trade.inTurn with ⟨_, _, _, taking⟩
  exact taking.better_makers sides trade.taker.1 trade.next trade.shape
    member better

/-- Nobody but the takers and the makers has been touched so far. -/
theorem filled
    (trade : TakerTrade side takers makers strangers base order fill
      state) :
    FilledFairly base side.worth takers makers state.heap := by
  rcases trade.inTurn with ⟨_, _, _, taking⟩
  exact taking.filled

end TakerTrade

/-- Some takers are done, and the later ones still wait. -/
structure TakenInTurn (side : OrderSide)
    (takers makers strangers rested done later : List Order) (base : Heap)
    (instrumentId : String) (state : BookState) : Prop where
  taking : Taking side takers makers strangers done base state
  invariant : BookInv state
  named : state.book.instrumentId = instrumentId
  fresh : ∀ taker ∈ later, Addable taker state ∧
    state.heap.remaining taker = base.remaining taker
  own : (state.book.restingOn side).Perm
    (unfilledIn state.heap (rested ++ done))

section Add

variable {side : OrderSide}
  {takers makers strangers rested done later : List Order} {base : Heap}
  {state : BookState} {order : Order} {instrumentId : String}

/-- Only the taker and makers are touched when a taker is added. -/
def Steady (order : Order) (makers : List Order) (before after : Heap) :
    Prop :=
  ∀ other, other.orderId ≠ order.orderId →
    other.orderId ∉ makers.map Order.orderId →
      after.remaining other = before.remaining other

theorem unfilledIn_congr {before after : Heap} {orders : List Order}
    (same : ∀ other ∈ orders,
      after.remaining other = before.remaining other) :
    unfilledIn after orders = unfilledIn before orders := by
  apply List.filter_congr
  intro other member
  apply decide_eq_decide.mpr
  rw [Order.IsFilled, Order.IsFilled, same other member]

/-- The remainder of the taker joins the queue of its side. -/
theorem rest_own_perm {matched : BookState} {orders : List Order}
    (shape : BookShape matched.book) (isLimit : order.IsLimitOrder)
    (own : (matched.book.restingOn order.side).Perm
      (unfilledIn matched.heap orders)) :
    ((matched.rest order).book.restingOn order.side).Perm
      (unfilledIn (matched.rest order).heap (orders ++ [order])) := by
  rw [rest_heap, unfilledIn, List.filter_append]
  by_cases filled : order.IsFilled matched.heap
  · rw [rest_restingOn_of_leaves (Or.inl filled),
      List.filter_cons_of_neg (by simpa using filled), List.filter_nil,
      List.append_nil]
    exact own
  · rcases (rest_restsLast shape filled isLimit.price_eq).place with
      ⟨ahead, behind, before, after, _, _⟩
    rw [after, List.filter_cons_of_pos (by simpa using filled),
      List.filter_nil]
    rw [before] at own
    exact List.perm_middle.trans
      ((own.cons order).trans (List.perm_append_singleton _ _).symm)

/-- The next trade touches its taker and a maker. -/
theorem Steady.step {start reached : BookState} {fill : Fill}
    (steady : Steady order makers start.heap reached.heap)
    (settles : Settles fill.trade order fill.matching reached.heap
      (reached.afterFill order fill).heap)
    (maker : fill.matching ∈ makers) :
    Steady order makers start.heap (reached.afterFill order fill).heap := by
  intro other notOrder notMaker
  rw [settles.unchanged notOrder]
  · exact steady other notOrder notMaker
  · intro same
    rw [same] at notMaker
    exact notMaker (List.mem_map_of_mem maker)

/-- The takers which still wait can be added to the book reached. -/
theorem addable_rest {matched : BookState} {other : Order}
    {trades : List Trade} (served : Served order state trades matched)
    (shape : BookShape state.book) (addable : Addable order state)
    (waits : Addable other state)
    (different : other.orderId ≠ order.orderId) :
    Addable other (matched.rest order) where
  instrument := by
    rw [rest_instrumentId, served.sound.changes.instrument]
    exact waits.instrument
  absent := by
    intro present
    have matchedShape := served.sound.invariant.shape
    have instrument : order.instrumentId = matched.book.instrumentId :=
      addable.instrument.trans served.sound.changes.instrument.symm
    rcases ((served.sound.rest_keeps addable).shape.ids _).mp present with
      ⟨candidate, member, equal⟩
    rcases mem_rest_resting matchedShape instrument member with
      rfl | resting
    · exact different equal.symm
    · exact waits.absent ((shape.ids _).mpr
        ⟨candidate, served.sound.changes.resting_subset resting, equal⟩)

/--
A taker is added, and the takers behind it still wait.  What its trades keep
still holds.
-/
theorem TakenInTurn.add (sides : TakingSides side takers makers strangers base)
    (apart : ∀ order ∈ rested,
      order.orderId ∉ (takers ++ makers).map Order.orderId)
    (split : unfilledIn base takers = done ++ order :: later)
    (taken : TakenInTurn side takers makers strangers rested done
      (order :: later) base instrumentId state)
    (kept : Heap → Prop) (holds : kept state.heap)
    (keeps : ∀ fill reached,
      TakerTrade side takers makers strangers base order fill reached →
        kept reached.heap → kept (reached.afterFill order fill).heap) :
    ∃ trades reached, OrderBook.addOrder order state = .ok trades reached ∧
      TakenInTurn side takers makers strangers rested (done ++ [order]) later
        base instrumentId reached ∧
      kept reached.heap := by
  have inQueue : order ∈ done ++ order :: later :=
    List.mem_append_right _ List.mem_cons_self
  rcases TakingSides.mem_takers split inQueue with ⟨taker, unfilled⟩
  rcases taken.fresh order List.mem_cons_self with ⟨addable, untouched⟩
  have takerIds : (takers.map Order.orderId).Nodup :=
    sides.distinct.sublist ((List.sublist_append_left _ _).map _)
  have nodup : (done ++ order :: later).Nodup := by
    rw [← split]
    exact (List.Nodup.of_map _ takerIds).filter _
  rcases addOrder_kept taken.invariant
      ((sides.fillable order taker).congr untouched) addable
      (fun _ reached =>
        Taking side takers makers strangers done base reached ∧
          Steady order makers state.heap reached.heap ∧
          order.instrumentId = reached.book.instrumentId ∧
          kept reached.heap)
      ⟨taken.taking, fun _ _ _ => rfl, addable.instrument, holds⟩
      (fun trades reached fill shape absent all next =>
        ⟨all.1.step sides split shape absent next,
          all.2.1.step (next.settles shape absent)
            (all.1.mem_makers sides taker unfilled next shape),
          all.2.2.1.trans (afterFill_instrumentId ..).symm,
          keeps fill reached
            ⟨⟨done, later, split, all.1⟩, shape, all.2.2.1, absent,
              next⟩
            all.2.2.2⟩) with
    ⟨trades, matched, evaluates, served, taking, steady, _, also⟩
  have shape := served.sound.invariant.shape
  have others : ∀ other ∈ takers, other ≠ order →
      matched.heap.remaining other = state.heap.remaining other := by
    intro other member different
    apply steady other (orderId_ne takerIds member taker different)
    intro inMakers
    rcases List.mem_map.mp inMakers with ⟨maker, makerMember, equal⟩
    exact orderId_apart sides.trading member makerMember equal.symm
  refine ⟨trades, matched.rest order, evaluates, ?_, ?_⟩
  swap
  · rw [rest_heap]
    exact also
  constructor
  · apply (taking.finish sides taker shape served.sound.done).congr
    · exact rest_heap
    · rw [← (sides.limits order taker).2]
      exact rest_restingOn_opposite
  · exact served.sound.rest_keeps addable
  · rw [rest_instrumentId, served.sound.changes.instrument]
    exact taken.named
  · intro other member
    have inAll : other ∈ done ++ order :: later :=
      List.mem_append_right _ (List.mem_cons_of_mem _ member)
    have otherTaker := (TakingSides.mem_takers split inAll).1
    have different : other ≠ order := by
      rintro rfl
      exact (List.nodup_cons.mp (List.nodup_append.mp nodup).2.1).1 member
    rcases taken.fresh other (List.mem_cons_of_mem _ member) with
      ⟨waits, unchanged⟩
    constructor
    · exact addable_rest served taken.invariant.shape addable waits
        (orderId_ne takerIds otherTaker taker different)
    · rw [rest_heap, others other otherTaker different]
      exact unchanged
  · rcases sides.limits order taker with ⟨isLimit, rfl⟩
    rw [← List.append_assoc]
    apply rest_own_perm shape isLimit
    have same : unfilledIn matched.heap (rested ++ done) =
        unfilledIn state.heap (rested ++ done) := by
      apply unfilledIn_congr
      intro other member
      rcases List.mem_append.mp member with inRested | inDone
      · have outside := apart other inRested
        rw [List.map_append, List.mem_append, not_or] at outside
        apply steady other _ outside.2
        intro equal
        rw [equal] at outside
        exact outside.1 (List.mem_map_of_mem taker)
      · apply others other (TakingSides.mem_takers split
          (List.mem_append_left _ inDone)).1
        rintro rfl
        exact (List.nodup_append.mp nodup).2.2 _ inDone _
          List.mem_cons_self rfl
    rw [same, OrderBook.restingOn_congr served.sound.changes.own]
    exact taken.own

/-- What the takers meet is what the makers and the strangers have left. -/
theorem TakenInTurn.queue_perm
    (sides : TakingSides side takers makers strangers base)
    (taken : TakenInTurn side takers makers strangers rested done later base
      instrumentId state) :
    (state.book.restingOn side.opposite).Perm
      (unfilledIn state.heap (makers ++ strangers)) := by
  apply (List.perm_ext_iff_of_nodup ?_ ?_).mpr
  · intro other
    rw [mem_unfilledIn]
    constructor
    · intro member
      exact ⟨taken.taking.queue other member,
        taken.invariant.quantities.unfilled
          (OrderBook.mem_resting_of_mem member)⟩
    · rintro ⟨member, unfilled⟩
      exact taken.taking.waiting other member unfilled
  · have distinct := List.Nodup.of_map _ taken.invariant.shape.distinct
    exact distinct.sublist (OrderBook.restingOn_sublist _)
  · exact (List.Nodup.of_map _ sides.resting).filter _

/-- Once all takers are done nobody who is left meets anybody. -/
theorem TakenInTurn.exhausted
    (taken : TakenInTurn side takers makers strangers rested
      (unfilledIn base takers) [] base instrumentId state) :
    Exhausted side.worth base.remaining (filledSince base state.heap)
      takers makers := by
  intro taker takerMember maker makerMember takerOpen makerOpen
  have unfilled : ∀ {order}, filledSince base state.heap order <
      base.remaining order → ¬ order.IsFilled state.heap :=
    fun left filled => left.ne (filled_iff.mpr filled)
  apply taken.taking.settled taker _ (unfilled takerOpen) maker
    makerMember (unfilled makerOpen)
  exact mem_unfilledIn.mpr ⟨takerMember,
    taken.taking.filled.unfilled_before
      (List.mem_append_left _ takerMember) (unfilled takerOpen)⟩

end Add

end InternTradingGame
