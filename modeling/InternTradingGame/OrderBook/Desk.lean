import InternTradingGame.OrderBook.Queues

/-!
# The desk: quantities in queues

A desk shows of a book only who waits on each side, in which order, and how
much each of them has left.  On a desk an order is matched by arithmetic
alone: a trade may have any quantity.

The book follows the desk as long as the trades are trades of whole
contracts.  The first one which is not stops the loop of the book, with the
trades before it made.
-/

namespace InternTradingGame

open Effects

/-! ## Desks -/

/-- An order and what it has left. -/
abbrev Quote := Order × ℚ

/-- The quotes of both sides, first come first served. -/
abbrev Desk := OrderSide → List Quote

/-- What a program does to the books, seen from the desk. -/
inductive DeskEffect where
  | trade (quantity : ℚ)
  | rest
deriving DecidableEq

/-- Only whole contracts can be traded. -/
def DeskEffect.Possible : DeskEffect → Prop
  | .trade quantity => Whole quantity
  | .rest => True

instance : DecidablePred DeskEffect.Possible := by
  intro effect
  rcases effect
  case trade quantity => exact inferInstanceAs (Decidable (Whole quantity))
  case rest => exact inferInstanceAs (Decidable True)

/-- The quantity an effect trades. -/
def DeskEffect.amounts : DeskEffect → List ℚ
  | .trade quantity => [quantity]
  | .rest => []

theorem DeskEffect.amounts_trades (amounts : List ℚ) :
    (amounts.map DeskEffect.trade).flatMap DeskEffect.amounts = amounts := by
  rw [List.flatMap_map]
  exact List.flatMap_singleton' amounts

/-- What a taker trades, what it has left and who still waits. -/
structure Meeting where
  amounts : List ℚ
  left : ℚ
  queue : List Quote

/-- The same meeting after some earlier trades. -/
def Meeting.after (met : Meeting) (earlier : List ℚ) : Meeting :=
  { met with amounts := earlier ++ met.amounts }

/-- The taker meets the other side until it is filled or refuses. -/
def meet (taker : Order) : ℚ → List Quote → Meeting
  | left, [] => ⟨[], left, []⟩
  | left, (maker, available) :: queue =>
      if left = 0 ∨ taker.Refuses maker.limit then
        ⟨[], left, (maker, available) :: queue⟩
      else if left < available then
        ⟨[left], 0, (maker, available - left) :: queue⟩
      else
        (meet taker (left - available) queue).after [available]

/-- A quote joins its side behind those at least as good. -/
def joinQueue (quote : Quote) (queue : List Quote) : List Quote :=
  (queue.filter fun other =>
      ¬ quote.1.side.Better quote.1.limit other.1.limit) ++
    quote ::
      queue.filter fun other =>
        quote.1.side.Better quote.1.limit other.1.limit

namespace Desk

variable (desk : Desk) (quote : Quote)

/-- An order which comes to the desk meets the other side. -/
def met : Meeting :=
  meet quote.1 quote.2 (desk quote.1.side.opposite)

/-- Something of a limit order is left after the meeting. -/
def Leaves : Prop :=
  quote.1.IsLimitOrder ∧ (desk.met quote).left ≠ 0

instance : Decidable (desk.Leaves quote) :=
  inferInstanceAs (Decidable (_ ∧ _))

/-- What happens when an order comes to the desk. -/
def effects : List DeskEffect :=
  (desk.met quote).amounts.map .trade ++
    if desk.Leaves quote then [.rest] else []

/-- The desk once an order has come to it. -/
def add : Desk := fun side =>
  if side = quote.1.side then
    if desk.Leaves quote then
      joinQueue (quote.1, (desk.met quote).left) (desk side)
    else
      desk side
  else
    (desk.met quote).queue

end Desk

/-- What the desk shows of a book. -/
def BookState.desk (state : BookState) : Desk := fun side =>
  (state.book.restingOn side).map fun order =>
    (order, state.heap.remaining order)

theorem BookState.desk_congr {state other : BookState} {side : OrderSide}
    (queue : other.book.restingOn side = state.book.restingOn side)
    (agree : ∀ order ∈ state.book.restingOn side,
      other.heap.remaining order = state.heap.remaining order) :
    other.desk side = state.desk side := by
  rw [BookState.desk, BookState.desk, queue]
  apply List.map_congr_left
  intro order member
  rw [agree order member]

/-! ## One trade on the desk -/

section Trade

variable {order : Order} {state : BookState} {fill : Fill}

/-- The next trade of the loop is the next trade of the meeting. -/
theorem Fill.Next.meet_eq (next : fill.Next order state)
    (shape : BookShape state.book)
    (absent : order.orderId ∉ state.book.orderIds) :
    meet order (state.heap.remaining order)
        (state.desk order.side.opposite) =
      (meet order ((state.afterFill order fill).heap.remaining order)
        ((state.afterFill order fill).desk order.side.opposite)).after
          [fill.trade.quantity] := by
  have refuses : ¬ order.Refuses fill.matching.limit := by
    rw [limit_of_mem shape next.mem_levels next.mem_orders]
    exact next.accepted
  have asks : ¬ (state.heap.remaining order = 0 ∨
      order.Refuses fill.matching.limit) :=
    not_or.mpr ⟨next.unfilled, refuses⟩
  have behind :
      (fill.queue ++ fill.deeper.flatMap PriceLevel.orders).map
          (fun other =>
            (other, (state.afterFill order fill).heap.remaining other)) =
        (fill.queue ++ fill.deeper.flatMap PriceLevel.orders).map
          fun other => (other, state.heap.remaining other) := by
    apply List.map_congr_left
    intro other member
    have resting : other ∈ state.book.resting := by
      apply @OrderBook.mem_resting_of_mem _ order.side.opposite
      rw [next.restingOn]
      exact List.mem_cons_of_mem _ member
    rw [Fill.Next.remaining_resting shape absent resting
      (next.ne_of_mem_behind shape member)]
  have left := next.remaining_order shape absent
  rw [BookState.desk, BookState.desk, next.restingOn_after,
    next.restingOn, List.map_cons, meet, if_neg asks]
  by_cases short :
      state.heap.remaining order < state.heap.remaining fill.matching
  · have whole : fill.trade.quantity = state.heap.remaining order :=
      next.quantity.trans (min_eq_left short.le)
    have partly : ¬ fill.Completes state.heap := by
      intro completes
      rw [Fill.Completes, whole] at completes
      exact short.ne' completes
    rw [if_pos short, if_neg partly, List.map_cons, behind, left, whole,
      sub_self, meet, if_pos (Or.inl rfl), Fill.Next.remaining_matching,
      whole]
    rfl
  · have whole : fill.trade.quantity =
        state.heap.remaining fill.matching :=
      next.quantity.trans (min_eq_right (not_lt.mp short))
    rw [if_neg short, if_pos (show fill.Completes state.heap from
      whole.symm), behind, left, whole]

/-- Nothing more happens at the end of the loop. -/
theorem MatchingDone.meet_eq (done : MatchingDone order state)
    (shape : BookShape state.book) :
    meet order (state.heap.remaining order)
        (state.desk order.side.opposite) =
      ⟨[], state.heap.remaining order,
        state.desk order.side.opposite⟩ := by
  rw [BookState.desk]
  cases queue : state.book.restingOn order.side.opposite with
  | nil => rfl
  | cons maker behind =>
      rw [List.map_cons, meet, if_pos]
      by_cases filled : order.IsFilled state.heap
      · exact Or.inl filled
      · have member : maker ∈
            state.book.restingOn order.side.opposite := by
          rw [queue]
          exact List.mem_cons_self
        rcases OrderBook.mem_restingOn_iff.mp member with
          ⟨level, levelMember, inLevel⟩
        rw [limit_of_mem shape levelMember inLevel]
        exact Or.inr (done.refuses shape filled level levelMember)

/-- The meeting goes on with a trade of a part of a contract. -/
theorem Fractional.meet_eq {matching : Order}
    (fractional : Fractional order state matching) :
    ∃ amount later,
      (meet order (state.heap.remaining order)
        (state.desk order.side.opposite)).amounts = amount :: later ∧
      ¬ Whole amount := by
  rcases fractional.first with ⟨behind, first⟩
  rcases fractional.accepted with ⟨limit, priced, accepted⟩
  have refuses : ¬ order.Refuses matching.limit := by
    rw [Order.limit, priced]
    exact accepted
  have asks : ¬ (state.heap.remaining order = 0 ∨
      order.Refuses matching.limit) :=
    not_or.mpr ⟨fractional.unfilled, refuses⟩
  rw [BookState.desk, first, List.map_cons, meet, if_neg asks]
  by_cases short :
      state.heap.remaining order < state.heap.remaining matching
  · rw [if_pos short]
    refine ⟨_, [], rfl, ?_⟩
    rw [← min_eq_left short.le]
    exact fractional.part
  · rw [if_neg short]
    refine ⟨_, _, rfl, ?_⟩
    rw [← min_eq_right (not_lt.mp short)]
    exact fractional.part

end Trade

/-! ## The loop follows the desk -/

/-- The loop has made the first trades of the meeting. -/
structure Follows (order : Order) (start : BookState)
    (trades : List Trade) (reached : BookState) : Prop where
  meets :
    meet order (start.heap.remaining order)
        (start.desk order.side.opposite) =
      (meet order (reached.heap.remaining order)
        (reached.desk order.side.opposite)).after
          (trades.map Trade.quantity)
  own : reached.desk order.side = start.desk order.side
  unspent : reached.Unspent
  nonnegative : 0 ≤ reached.heap.remaining order
  recorded : Recorded start trades reached

namespace Follows

variable {order : Order} {start reached : BookState}
  {trades : List Trade} {fill : Fill}

theorem refl (shape : BookShape start.book) (unspent : start.Unspent)
    (nonnegative : 0 ≤ start.heap.remaining order) :
    Follows order start [] start where
  meets := rfl
  own := rfl
  unspent := unspent
  nonnegative := nonnegative
  recorded := Recorded.refl shape

theorem step (follows : Follows order start trades reached)
    (shape : BookShape reached.book)
    (absent : order.orderId ∉ reached.book.orderIds)
    (next : fill.Next order reached) :
    Follows order start (trades ++ [fill.trade])
      (reached.afterFill order fill) where
  meets := by
    rw [follows.meets, next.meet_eq shape absent]
    simp [Meeting.after]
  own := by
    refine (BookState.desk_congr ?_ ?_).trans follows.own
    · exact OrderBook.restingOn_congr (afterFill_levels ..)
    · intro other member
      exact Fill.Next.remaining_resting shape absent
        (OrderBook.mem_resting_of_mem member)
        (next.ne_of_mem_own shape member)
  unspent := by
    intro other member
    have before := next.resting_subset shape member
    by_cases isMatching : other.orderId = fill.matching.orderId
    · obtain rfl : other = fill.matching :=
        List.inj_on_of_nodup_map shape.distinct before next.mem_resting
          isMatching
      rw [Fill.Next.remaining_matching]
      refine sub_pos.mpr (lt_of_le_of_ne next.quantity_le_matching ?_)
      intro completes
      have gone := (next.removed shape completes.symm).mem_changed_iff
        shape |>.mp member
      exact gone.2 rfl
    · rw [Fill.Next.remaining_resting shape absent before isMatching]
      exact follows.unspent other before
  nonnegative := by
    rw [next.remaining_order shape absent]
    exact sub_nonneg.mpr next.quantity_le_order
  recorded := follows.recorded.step

end Follows

/-! ## Adding an order -/

section Add

variable {order : Order} {start matched : BookState}
  {trades : List Trade}

/-- The quote of an order, as it comes to its book. -/
def BookState.quote (state : BookState) (order : Order) : Quote :=
  (order, state.heap.remaining order)

theorem Follows.met_eq (follows : Follows order start trades matched)
    (done : MatchingDone order matched) (shape : BookShape matched.book) :
    start.desk.met (start.quote order) =
      ⟨trades.map Trade.quantity, matched.heap.remaining order,
        matched.desk order.side.opposite⟩ := by
  have meets := follows.meets
  rw [done.meet_eq shape, Meeting.after, List.append_nil] at meets
  exact meets

theorem Follows.leaves_iff (follows : Follows order start trades matched)
    (done : MatchingDone order matched) (shape : BookShape matched.book) :
    start.desk.Leaves (start.quote order) ↔
      order.IsLimitOrder ∧ ¬ order.IsFilled matched.heap := by
  rw [Desk.Leaves, follows.met_eq done shape]
  exact Iff.rfl

/-- A quote joins the quotes where its order joins the orders. -/
theorem RestsLast.quotes_eq {limit left : ℚ} {before after : List Order}
    (quote : Order → Quote) (named : ∀ other, (quote other).1 = other)
    (own : quote order = (order, left)) (priced : order.price = some limit)
    (last : RestsLast order limit before after) :
    after.map quote = joinQueue (order, left) (before.map quote) := by
  have orderLimit : order.limit = limit := by
    rw [Order.limit, priced]
    rfl
  rw [last.eq_filter, joinQueue, List.map_append, List.map_cons, own,
    List.filter_map, List.filter_map]
  simp only [Function.comp_def, named, orderLimit]

/-- The book with the remainder shows what the desk shows. -/
theorem Follows.desk_rest (follows : Follows order start trades matched)
    (done : MatchingDone order matched) (shape : BookShape matched.book) :
    (matched.rest order).desk = start.desk.add (start.quote order) := by
  have left := follows.met_eq done shape
  have leaves := follows.leaves_iff done shape
  have heap : (matched.rest order).heap = matched.heap := rest_heap
  funext side
  rw [Desk.add]
  split_ifs with own keeps
  · subst own
    rcases leaves.mp keeps with ⟨isLimit, unfilled⟩
    rcases (order.isLimitOrder_iff).mp isLimit with ⟨limit, priced⟩
    have last := rest_restsLast shape unfilled priced
    rw [left]
    show ((matched.rest order).book.restingOn order.side).map _ =
      joinQueue (order, matched.heap.remaining order)
        (start.desk order.side)
    rw [← follows.own, heap]
    exact last.quotes_eq
      (fun other => (other, matched.heap.remaining other))
      (fun _ => rfl) rfl priced
  · subst own
    have stays : order.IsFilled matched.heap ∨ ¬ order.IsLimitOrder := by
      by_contra neither
      rcases not_or.mp neither with ⟨unfilled, isLimit⟩
      exact keeps (leaves.mpr ⟨not_not.mp isLimit, unfilled⟩)
    show _ = start.desk order.side
    rw [← follows.own]
    apply BookState.desk_congr (rest_restingOn_of_leaves stays)
    intro other _
    rw [heap]
  · rcases OrderSide.eq_opposite_of_ne own with rfl
    show _ = (start.desk.met (start.quote order)).queue
    rw [left]
    apply BookState.desk_congr rest_restingOn_opposite
    intro other _
    rw [heap]

theorem Follows.unspent_rest
    (follows : Follows order start trades matched)
    (shape : BookShape matched.book)
    (instrument : order.instrumentId = matched.book.instrumentId) :
    (matched.rest order).Unspent := by
  intro other member
  rw [rest_heap]
  rcases @rest_cases order matched with
    unchanged | ⟨limit, priced, unfilled, inserted⟩
  · exact follows.unspent other (unchanged ▸ member)
  · rw [inserted] at member
    rcases (inserted_inserted shape instrument priced).mem_changed_iff.mp
        member with rfl | old
    · exact lt_of_le_of_ne follows.nonnegative (Ne.symm unfilled)
    · exact follows.unspent other old

/-- An order which passes the guards is matched as on the desk. -/
theorem addOrder_follows (shape : BookShape start.book)
    (unspent : start.Unspent)
    (nonnegative : 0 ≤ start.heap.remaining order)
    (addable : Addable order start) :
    Ends (OrderBook.addOrder order) start
      (fun trades reached =>
        ∃ matched, reached = matched.rest order ∧
          Matched order start trades matched ∧
          Follows order start trades matched ∧
          BookShape matched.book ∧
          order.orderId ∉ matched.book.orderIds ∧
          MatchingDone order matched)
      (fun _ reached =>
        ∃ trades amount later,
          (start.desk.met (start.quote order)).amounts =
              trades.map Trade.quantity ++ amount :: later ∧
            ¬ Whole amount ∧ Matched order start trades reached ∧
            (trades = [] → reached = start)) := by
  refine
    (addOrder_ends (Follows order start) shape ?_ ?_).mono ?_ ?_
  · intro trades reached fill _ reachedShape absent follows next
    exact follows.step reachedShape absent next
  · intro _
    exact Follows.refl shape unspent nonnegative
  · rintro trades reached
      ⟨_, matched, rfl, changes, follows, matchedShape, absent, done⟩
    exact ⟨matched, rfl, changes, follows, matchedShape, absent, done⟩
  · rintro exception reached
      (⟨_, guarded⟩ | ⟨_, reachedShape, rejected, trades, changes,
        follows⟩)
    · exact absurd addable guarded
    · rcases rejected.fractional reachedShape
        follows.unspent follows.nonnegative with
        ⟨matching, fractional⟩
      rcases fractional.meet_eq with ⟨amount, later, amounts, part⟩
      refine ⟨trades, amount, later, ?_, part, changes,
        follows.recorded.idle⟩
      refine (congrArg Meeting.amounts follows.meets).trans ?_
      rw [Meeting.after, amounts]

end Add

end InternTradingGame
