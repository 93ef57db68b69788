import InternTradingGame.OrderBook.Without

/-!
# An untouched order leaves no trace

An order which rests for a while, is never traded and is then cancelled
changes nothing for the others: the run without these two calls gives the
same answers and ends with the same book.
-/

namespace InternTradingGame

open Effects

/-! ## Calls and their answers -/

/-- What a call of a book answers: its value, or its exception. -/
inductive BookAnswer where
  | added (outcome : Except PyError (List Trade))
  | cancelled (outcome : Except PyError (Option Order))

/-- The answer to one call. -/
def BookCall.answer : BookCall → BookState → BookAnswer
  | .addOrder order, state =>
      .added (outcome (OrderBook.addOrder order (state.withOrder order)))
  | .cancelOrder orderId, state =>
      .cancelled (outcome (OrderBook.cancelOrder orderId state))

/-- The answers to the calls of a run, in order. -/
def bookAnswers : BookState → List BookCall → List BookAnswer
  | _, [] => []
  | state, call :: rest =>
      call.answer state :: bookAnswers (call.execute state) rest

/-- The quantity of an added order is whole. -/
def BookCall.WholeQuantity : BookCall → Prop
  | .addOrder order => Whole order.quantity
  | .cancelOrder _ => True

instance BookCall.decidableWholeQuantity (call : BookCall) :
    Decidable call.WholeQuantity := by
  rcases call
  case addOrder order =>
      exact inferInstanceAs (Decidable (Whole order.quantity))
  case cancelOrder orderId => exact inferInstanceAs (Decidable True)

/-- The ids of the orders which the calls add. -/
def addedIds (calls : List BookCall) : List String :=
  calls.filterMap fun call =>
    match call with
    | .addOrder order => some order.orderId
    | .cancelOrder _ => none

/-- The calls add distinct new orders of whole quantities. -/
structure NewOrders (state : BookState) (calls : List BookCall) :
    Prop where
  whole : ∀ call ∈ calls, call.WholeQuantity
  distinct : (addedIds calls).Nodup
  fresh : ∀ orderId ∈ addedIds calls,
    ∀ resting ∈ state.book.resting, resting.orderId ≠ orderId

section Calls

variable {state : BookState} {call : BookCall} {rest : List BookCall}

/-- Only the added order itself can start to rest. -/
theorem resting_after (invariant : BookInv state)
    (allowed : call.Allowed state) :
    ∀ resting ∈ (call.execute state).book.resting,
      resting ∈ state.book.resting ∨ call = .addOrder resting := by
  intro resting member
  cases call with
  | addOrder order =>
      have ends := addOrder_sound (invariant.allocate allowed.2)
        (Order.Fillable.allocate state.heap allowed.1)
      rw [BookCall.execute] at member
      cases evaluated :
          OrderBook.addOrder order (state.withOrder order) with
      | ok trades reached =>
          rcases ends.elim_ok evaluated with ⟨addable, matched, rfl, sound⟩
          rw [evaluated, finalState_ok] at member
          have instrument : order.instrumentId =
              matched.book.instrumentId :=
            addable.instrument.trans sound.changes.instrument.symm
          rcases mem_rest_resting sound.invariant.shape instrument member
            with rfl | old
          · exact Or.inr rfl
          · exact Or.inl (sound.changes.resting_subset old)
      | error exception reached =>
          rcases ends.elim_error evaluated with ⟨rfl, _⟩
          rw [evaluated] at member
          exact Or.inl member
  | cancelOrder orderId =>
      left
      rw [BookCall.execute] at member
      rcases cancelOrder_cases invariant.shape orderId with
        ⟨side, order, reached, _, _, evaluates, cancelled⟩ |
          ⟨_, evaluates⟩
      · rw [evaluates, finalState_ok] at member
        exact cancelled.removed.mem_resting_iff.mpr (Or.inr member)
      · rw [evaluates, finalState_ok] at member
        exact member

namespace NewOrders

theorem allowed (calls : NewOrders state (call :: rest)) :
    call.Allowed state := by
  cases call with
  | addOrder order =>
      exact ⟨calls.whole _ List.mem_cons_self,
        calls.fresh order.orderId List.mem_cons_self⟩
  | cancelOrder orderId => trivial

theorem invariant_after (calls : NewOrders state (call :: rest))
    (invariant : BookInv state) : BookInv (call.execute state) :=
  bookStep_keeps ⟨calls.allowed, rfl⟩ invariant

theorem tail (calls : NewOrders state (call :: rest))
    (invariant : BookInv state) :
    NewOrders (call.execute state) rest := by
  have sub : (addedIds rest).Sublist (addedIds (call :: rest)) :=
    (List.sublist_cons_self call rest).filterMap _
  constructor
  · exact fun other member =>
      calls.whole other (List.mem_cons_of_mem _ member)
  · exact calls.distinct.sublist sub
  · intro orderId member resting inBook equal
    rcases resting_after invariant calls.allowed resting inBook with
      old | rfl
    · exact calls.fresh orderId (sub.subset member) resting old equal
    · have distinct : (resting.orderId :: addedIds rest).Nodup :=
        calls.distinct
      exact (List.nodup_cons.mp distinct).1 (equal ▸ member)

/-- The later calls of a run add new orders as well. -/
theorem drop {calls later : List BookCall} {state : BookState}
    (new : NewOrders state (calls ++ later)) (invariant : BookInv state) :
    BookInv (replay BookCall.execute state calls) ∧
      NewOrders (replay BookCall.execute state calls) later := by
  induction calls generalizing state with
  | nil => exact ⟨invariant, new⟩
  | cons call rest induction =>
      exact induction (new.tail invariant)
        (NewOrders.invariant_after new invariant)

/-- The earlier calls of a run add new orders as well. -/
theorem take {calls later : List BookCall} {state : BookState}
    (new : NewOrders state (calls ++ later)) : NewOrders state calls := by
  have sub : (addedIds calls).Sublist (addedIds (calls ++ later)) :=
    (List.sublist_append_left calls later).filterMap _
  constructor
  · exact fun other member =>
      new.whole other (List.mem_append_left _ member)
  · exact new.distinct.sublist sub
  · exact fun orderId member =>
      new.fresh orderId (sub.subset member)

/-- An id which neither rests nor is added does not rest later. -/
theorem missing {calls : List BookCall} {state : BookState}
    {orderId : String} (new : NewOrders state calls)
    (invariant : BookInv state) (unadded : orderId ∉ addedIds calls)
    (gone : ∀ resting ∈ state.book.resting,
      resting.orderId ≠ orderId) :
    ∀ resting ∈ (replay BookCall.execute state calls).book.resting,
      resting.orderId ≠ orderId := by
  induction calls generalizing state with
  | nil => exact gone
  | cons call rest induction =>
      have sub : (addedIds rest).Sublist (addedIds (call :: rest)) :=
        (List.sublist_cons_self call rest).filterMap _
      apply induction (new.tail invariant) (new.invariant_after invariant)
      · exact fun member => unadded (sub.subset member)
      · intro resting member equal
        rcases resting_after invariant new.allowed resting member with
          old | rfl
        · exact gone resting old equal
        · exact unadded (equal ▸ List.mem_cons_self)

end NewOrders

end Calls

/-! ## Two runs side by side -/

section Runs

variable {orderId : String} {left right : BookState} {call : BookCall}

/-- The call does not concern the order which is left out. -/
def BookCall.Leaves (orderId : String) (state : BookState) :
    BookCall → Prop
  | .addOrder order => order.orderId ≠ orderId
  | .cancelOrder other =>
      other = orderId → ∀ resting ∈ state.book.resting,
        resting.orderId ≠ orderId

/-- An order of another instrument is refused alike. -/
theorem addOrder_wrongInstrument {state : BookState} {order : Order}
    (wrong : order.instrumentId ≠ state.book.instrumentId) :
    OrderBook.addOrder order state =
      .error
        (.valueError
          ("Order instrument " ++ order.instrumentId ++
            " does not match book instrument " ++
            state.book.instrumentId))
        state := by
  rw [OrderBook.addOrder, bind_apply, get_apply]
  simp only [if_pos wrong]
  rfl

/-- What a call adds to the record of trades. -/
theorem trades_after (invariant : BookInv left)
    (allowed : call.Allowed left) :
    left.heap.trades ⊆ (call.execute left).heap.trades := by
  cases call with
  | addOrder order =>
      have ends := addOrder_sound (invariant.allocate allowed.2)
        (Order.Fillable.allocate left.heap allowed.1)
      rw [BookCall.execute]
      cases evaluated :
          OrderBook.addOrder order (left.withOrder order) with
      | ok trades reached =>
          rcases ends.elim_ok evaluated with ⟨_, matched, rfl, sound⟩
          rw [finalState_ok, rest_heap, sound.changes.recorded]
          exact List.subset_append_left _ _
      | error exception reached =>
          rcases ends.elim_error evaluated with ⟨rfl, _⟩
          exact List.Subset.refl _
  | cancelOrder orderId =>
      rw [BookCall.execute]
      rcases cancelOrder_cases invariant.shape orderId with
        ⟨side, order, reached, _, _, evaluates, cancelled⟩ |
          ⟨_, evaluates⟩
      · rw [evaluates, finalState_ok, cancelled.heap]
        exact List.Subset.refl _
      · rw [evaluates]
        exact List.Subset.refl _

theorem trades_later {calls : List BookCall} {state : BookState}
    (invariant : BookInv state) (new : NewOrders state calls) :
    state.heap.trades ⊆
      (replay BookCall.execute state calls).heap.trades := by
  induction calls generalizing state with
  | nil => exact List.Subset.refl _
  | cons call rest induction =>
      exact List.Subset.trans (trades_after invariant new.allowed)
        (induction (new.invariant_after invariant) (new.tail invariant))

namespace Without

/-- Adding an order on both sides. -/
theorem addOrder_step {order : Order}
    (without : Without orderId left right)
    (allowed : (BookCall.addOrder order).Allowed left)
    (different : order.orderId ≠ orderId)
    (untouched : ∀ trade ∈
      ((BookCall.addOrder order).execute left).heap.trades,
        ¬ trade.Names orderId) :
    (BookCall.addOrder order).answer left =
        (BookCall.addOrder order).answer right ∧
      Without orderId ((BookCall.addOrder order).execute left)
        ((BookCall.addOrder order).execute right) := by
  have start := @withOrder_both _ _ _ order without allowed.2
  have leftFillable := Order.Fillable.allocate left.heap allowed.1
  have rightFillable := Order.Fillable.allocate right.heap allowed.1
  have absent : order.orderId ∉ left.book.orderIds := by
    intro present
    rcases (without.leftInv.shape.ids _).mp present with
      ⟨resting, member, equal⟩
    exact allowed.2 resting member equal
  have rightAbsent : order.orderId ∉ right.book.orderIds := by
    rw [without.orderIds_eq]
    exact fun present => absent (Finset.mem_of_mem_erase present)
  rw [BookCall.execute] at untouched
  rw [BookCall.answer, BookCall.answer, BookCall.execute,
    BookCall.execute]
  by_cases instrument : order.instrumentId = left.book.instrumentId
  · have addable : Addable order (left.withOrder order) :=
      ⟨instrument, absent⟩
    have rightAddable : Addable order (right.withOrder order) :=
      ⟨instrument.trans without.instrument, rightAbsent⟩
    rcases addOrder_served start.leftInv leftFillable addable with
      ⟨trades, matched, evaluates, served⟩
    rcases addOrder_served start.rightInv rightFillable rightAddable with
      ⟨others, other, rightEvaluates, rightServed⟩
    rw [evaluates, finalState_ok, rest_heap,
      served.sound.changes.recorded] at untouched
    rcases start.matched_both different served rightServed
        fun trade member =>
          untouched trade (List.mem_append_right _ member) with
      ⟨rfl, reached⟩
    rw [evaluates, rightEvaluates]
    exact ⟨rfl, reached.rest_both different
      (served.sound.rest_keeps addable)
      (rightServed.sound.rest_keeps rightAddable)⟩
  · have rightInstrument :
        order.instrumentId ≠ right.book.instrumentId := by
      rw [← without.instrument]
      exact instrument
    have leftRaises :=
      @addOrder_wrongInstrument (left.withOrder order) order instrument
    have rightRaises :=
      @addOrder_wrongInstrument (right.withOrder order) order
        rightInstrument
    have message : (right.withOrder order).book.instrumentId =
        (left.withOrder order).book.instrumentId :=
      without.instrument.symm
    rw [message] at rightRaises
    rw [leftRaises, rightRaises]
    exact ⟨rfl, start⟩

/-- Cancelling an order on both sides. -/
theorem cancelOrder_step {other : String}
    (without : Without orderId left right)
    (leaves : (BookCall.cancelOrder other).Leaves orderId left) :
    (BookCall.cancelOrder other).answer left =
        (BookCall.cancelOrder other).answer right ∧
      Without orderId ((BookCall.cancelOrder other).execute left)
        ((BookCall.cancelOrder other).execute right) := by
  rw [BookCall.answer, BookCall.answer, BookCall.execute,
    BookCall.execute]
  rcases cancelOrder_cases without.leftInv.shape other with
    ⟨side, order, reached, member, rfl, evaluates, cancelled⟩ |
      ⟨missing, evaluates⟩
  · have different : order.orderId ≠ orderId := by
      intro same
      exact leaves same order (OrderBook.mem_resting_of_mem member) same
    rcases cancelOrder_resting without.rightInv.shape
        (without.mem_restingOn_iff.mpr ⟨member, different⟩) with
      ⟨rightReached, rightEvaluates, rightCancelled⟩
    rw [evaluates, rightEvaluates]
    exact ⟨rfl, without.cancelled_both cancelled rightCancelled⟩
  · have rightEvaluates := cancelOrder_missing without.rightInv.shape
      fun order member =>
        missing order (without.mem_resting_iff.mp member).1
    rw [evaluates, rightEvaluates]
    exact ⟨rfl, without⟩

theorem step (without : Without orderId left right)
    (allowed : call.Allowed left) (leaves : call.Leaves orderId left)
    (untouched : ∀ trade ∈ (call.execute left).heap.trades,
      ¬ trade.Names orderId) :
    call.answer left = call.answer right ∧
      Without orderId (call.execute left) (call.execute right) := by
  cases call with
  | addOrder order => exact without.addOrder_step allowed leaves untouched
  | cancelOrder other => exact without.cancelOrder_step leaves

/--
Calls which leave the order alone are answered alike.  Once the order has
gone, a cancel of its id leaves it alone as well.
-/
theorem run {calls : List BookCall}
    (without : Without orderId left right)
    (new : NewOrders left calls) (unadded : orderId ∉ addedIds calls)
    (quiet : .cancelOrder orderId ∉ calls ∨
      ∀ resting ∈ left.book.resting, resting.orderId ≠ orderId)
    (untouched : ∀ trade ∈
      (replay BookCall.execute left calls).heap.trades,
        ¬ trade.Names orderId) :
    bookAnswers left calls = bookAnswers right calls ∧
      Without orderId (replay BookCall.execute left calls)
        (replay BookCall.execute right calls) := by
  induction calls generalizing left right with
  | nil => exact ⟨rfl, without⟩
  | cons call rest induction =>
      have later := new.tail without.leftInv
      have sub : (addedIds rest).Sublist (addedIds (call :: rest)) :=
        (List.sublist_cons_self call rest).filterMap _
      have leaves : call.Leaves orderId left := by
        cases call with
        | addOrder order =>
            exact fun same => unadded (same ▸ List.mem_cons_self)
        | cancelOrder other =>
            intro same
            rcases quiet with notCancelled | gone
            · exact absurd (same ▸ List.mem_cons_self) notCancelled
            · exact gone
      have made := trades_later (new.invariant_after without.leftInv)
        later
      rcases without.step new.allowed leaves
        fun trade member => untouched trade (made member) with
        ⟨answer, reached⟩
      have quietLater : .cancelOrder orderId ∉ rest ∨
          ∀ resting ∈ (call.execute left).book.resting,
            resting.orderId ≠ orderId := by
        refine quiet.imp
          (fun notCancelled member =>
            notCancelled (List.mem_cons_of_mem _ member)) ?_
        intro gone resting member equal
        rcases resting_after without.leftInv new.allowed resting member
          with old | rfl
        · exact gone resting old equal
        · exact unadded (equal ▸ List.mem_cons_self)
      rcases induction reached later
        (fun member => unadded (sub.subset member)) quietLater untouched with
        ⟨answers, final⟩
      rw [bookAnswers, bookAnswers, answer, answers]
      exact ⟨rfl, final⟩

end Without

end Runs

/-! ## A run with and without the order -/

section Answers

variable (state : BookState) (calls later : List BookCall)

theorem replay_append :
    replay BookCall.execute state (calls ++ later) =
      replay BookCall.execute (replay BookCall.execute state calls)
        later :=
  List.foldl_append

theorem bookAnswers_append :
    bookAnswers state (calls ++ later) =
      bookAnswers state calls ++
        bookAnswers (replay BookCall.execute state calls) later := by
  induction calls generalizing state with
  | nil => rfl
  | cons call rest induction =>
      rw [List.cons_append, bookAnswers, induction, bookAnswers]
      rfl

@[simp]
theorem length_bookAnswers :
    (bookAnswers state calls).length = calls.length := by
  induction calls generalizing state with
  | nil => rfl
  | cons call rest induction =>
      rw [bookAnswers, List.length_cons, induction, List.length_cons]

end Answers

/-- The run in which the order is added at one point and cancelled later. -/
def visitedBy (order : Order) (before middle after : List BookCall) :
    List BookCall :=
  before ++
    .addOrder order :: (middle ++ .cancelOrder order.orderId :: after)

/--
The answers to the other calls, the book and what its orders have left are
the same as in the run without the two calls.
-/
structure LeavesNoTrace (start : BookState) (order : Order)
    (before middle after : List BookCall) : Prop where
  answers :
    ((bookAnswers start (visitedBy order before middle after)).eraseIdx
        (before.length + (1 + middle.length))).eraseIdx before.length =
      bookAnswers start (before ++ (middle ++ after))
  trades :
    (replay BookCall.execute start
        (visitedBy order before middle after)).heap.trades =
      (replay BookCall.execute start
        (before ++ (middle ++ after))).heap.trades
  book :
    (replay BookCall.execute start
        (visitedBy order before middle after)).book =
      (replay BookCall.execute start (before ++ (middle ++ after))).book
  remaining : ∀ resting ∈
    (replay BookCall.execute start
        (visitedBy order before middle after)).book.resting,
      (replay BookCall.execute start
          (visitedBy order before middle after)).heap.remaining resting =
        (replay BookCall.execute start
          (before ++ (middle ++ after))).heap.remaining resting

section Visit

variable {order : Order} {state : BookState} {calls : List BookCall}

/-- An order which rests at the end has not been cancelled. -/
theorem not_cancelled {orderId : String} (new : NewOrders state calls)
    (invariant : BookInv state) (unadded : orderId ∉ addedIds calls)
    (rests : ∃ resting ∈
      (replay BookCall.execute state calls).book.resting,
        resting.orderId = orderId) :
    .cancelOrder orderId ∉ calls := by
  intro member
  rcases List.append_of_mem member with ⟨earlier, later, rfl⟩
  rcases new.drop invariant with ⟨reachedInv, reachedNew⟩
  rcases rests with ⟨resting, inBook, equal⟩
  rw [replay_append] at inBook
  have sub : (addedIds later).Sublist
      (addedIds (earlier ++ .cancelOrder orderId :: later)) :=
    ((List.sublist_cons_self _ later).trans
      (List.sublist_append_right _ _)).filterMap _
  refine NewOrders.missing (reachedNew.tail reachedInv)
    (reachedNew.invariant_after reachedInv)
    (fun added => unadded (sub.subset added)) ?_ resting inBook equal
  intro other rests
  rw [BookCall.execute] at rests
  rcases cancelOrder_cases reachedInv.shape orderId with
    ⟨side, order, reached, _, rfl, evaluates, cancelled⟩ |
      ⟨missing, evaluates⟩
  · rw [evaluates, finalState_ok] at rests
    exact cancelled.removed.ne_of_mem reachedInv.shape rests
  · rw [evaluates, finalState_ok] at rests
    exact missing other rests

/-- A new order which is never traded only starts to rest. -/
theorem arrived_of_untouched (invariant : BookInv state)
    (allowed : (BookCall.addOrder order).Allowed state)
    (rests : ∃ resting ∈
      ((BookCall.addOrder order).execute state).book.resting,
        resting.orderId = order.orderId)
    (untouched : ∀ trade ∈
      ((BookCall.addOrder order).execute state).heap.trades,
        ¬ trade.Names order.orderId) :
    Without order.orderId ((BookCall.addOrder order).execute state)
      state := by
  have start := invariant.allocate allowed.2
  have fillable := Order.Fillable.allocate state.heap allowed.1
  rw [BookCall.execute] at rests untouched ⊢
  by_cases instrument : order.instrumentId = state.book.instrumentId
  · have addable : Addable order (state.withOrder order) := by
      refine ⟨instrument, ?_⟩
      intro present
      rcases (invariant.shape.ids _).mp present with ⟨resting, member, equal⟩
      exact allowed.2 resting member equal
    rcases addOrder_served start fillable addable with
      ⟨trades, matched, evaluates, served⟩
    rw [evaluates, finalState_ok, rest_heap,
      served.sound.changes.recorded] at untouched
    have none : trades = [] := by
      apply List.eq_nil_iff_forall_not_mem.mpr
      intro trade member
      rcases served.sound.changes.parties trade member with
        ⟨matching, _, price, _, _, tradeOf⟩
      exact untouched trade (List.mem_append_right _ member)
        ((tradeOf.names_iff _).mpr (Or.inl rfl))
    have restedInv := served.sound.rest_keeps addable
    rw [served.recorded.idle none] at restedInv evaluates
    rw [evaluates, finalState_ok]
    exact Without.arrived invariant allowed.2 restedInv
  · rw [@addOrder_wrongInstrument (state.withOrder order) order
      instrument] at rests
    rcases rests with ⟨resting, member, equal⟩
    exact absurd equal (allowed.2 resting member)

/-- The order which is left out is cancelled in the first book. -/
theorem Without.leave {left right reached : BookState}
    (without : Without order.orderId left right)
    (succeeds : OrderBook.cancelOrder order.orderId left =
      .ok (some order) reached) :
    Without order.orderId
        ((BookCall.cancelOrder order.orderId).execute left) right ∧
      ∀ resting ∈
        ((BookCall.cancelOrder order.orderId).execute left).book.resting,
          resting.orderId ≠ order.orderId := by
  rw [BookCall.execute]
  rcases cancelOrder_cases without.leftInv.shape order.orderId with
    ⟨side, found, other, _, _, evaluates, taken⟩ | ⟨_, evaluates⟩
  · cases evaluates.symm.trans succeeds
    rw [evaluates, finalState_ok]
    exact ⟨without.cancelled_left taken, fun resting member =>
      taken.removed.ne_of_mem without.leftInv.shape member⟩
  · cases evaluates.symm.trans succeeds

/-- The stretch of a run from the arrival of the order to the end. -/
theorem visit {middle after : List BookCall} (invariant : BookInv state)
    (new : NewOrders state
      (.addOrder order ::
        (middle ++ .cancelOrder order.orderId :: after)))
    (untouched : ∀ trade ∈
      (replay BookCall.execute state
        (.addOrder order ::
          (middle ++ .cancelOrder order.orderId :: after))).heap.trades,
            ¬ trade.Names order.orderId)
    (cancelled : ∃ reached,
      OrderBook.cancelOrder order.orderId
          (replay BookCall.execute state (.addOrder order :: middle)) =
        .ok (some order) reached) :
    ∃ arrived left gone,
      (BookCall.addOrder order).execute state = arrived ∧
      replay BookCall.execute arrived middle = left ∧
      (BookCall.cancelOrder order.orderId).execute left = gone ∧
      bookAnswers arrived middle = bookAnswers state middle ∧
      bookAnswers gone after =
        bookAnswers (replay BookCall.execute state middle) after ∧
      Without order.orderId (replay BookCall.execute gone after)
        (replay BookCall.execute
          (replay BookCall.execute state middle) after) ∧
      ∀ resting ∈ (replay BookCall.execute gone after).book.resting,
        resting.orderId ≠ order.orderId := by
  have arrivedNew := new.tail invariant
  have arrivedInv := new.invariant_after invariant
  rcases arrivedNew.drop arrivedInv with ⟨leftInv, leftNew⟩
  have unadded : order.orderId ∉
      addedIds (middle ++ .cancelOrder order.orderId :: after) :=
    (List.nodup_cons.mp
      (show (order.orderId :: addedIds (middle ++
        .cancelOrder order.orderId :: after)).Nodup from
          new.distinct)).1
  have middleNew : NewOrders ((BookCall.addOrder order).execute state)
      middle := arrivedNew.take
  have notMiddle : order.orderId ∉ addedIds middle := fun added =>
    unadded (((List.sublist_append_left middle _).filterMap _).subset
      added)
  have notAfter : order.orderId ∉ addedIds after := fun added =>
    unadded ((((List.sublist_cons_self _ after).trans
      (List.sublist_append_right _ _)).filterMap _).subset added)
  rcases cancelled with ⟨reached, succeeds⟩
  have restsLater : order ∈
      (replay BookCall.execute
        ((BookCall.addOrder order).execute state) middle).book.resting
          := by
    rcases cancelOrder_cases leftInv.shape order.orderId with
      ⟨side, found, other, member, _, evaluates, _⟩ | ⟨_, evaluates⟩
    · cases evaluates.symm.trans succeeds
      exact OrderBook.mem_resting_of_mem member
    · cases evaluates.symm.trans succeeds
  have restsNow : ∃ resting ∈
      ((BookCall.addOrder order).execute state).book.resting,
        resting.orderId = order.orderId := by
    by_contra none
    refine middleNew.missing arrivedInv notMiddle ?_ order restsLater rfl
    intro resting member equal
    exact none ⟨resting, member, equal⟩
  have finalTrades :
      replay BookCall.execute state
          (.addOrder order ::
            (middle ++ .cancelOrder order.orderId :: after)) =
        replay BookCall.execute
          (replay BookCall.execute
            ((BookCall.addOrder order).execute state) middle)
          (.cancelOrder order.orderId :: after) :=
    replay_append _ middle _
  rw [finalTrades] at untouched
  have untouchedLeft := trades_later leftInv leftNew
  have untouchedArrived := trades_later arrivedInv middleNew
  have arrived := arrived_of_untouched invariant new.allowed restsNow
    fun trade member =>
      untouched trade (untouchedLeft (untouchedArrived member))
  rcases arrived.run middleNew notMiddle
    (Or.inl (not_cancelled middleNew arrivedInv notMiddle
      ⟨order, restsLater, rfl⟩))
    fun trade member => untouched trade (untouchedLeft member) with
    ⟨middleAnswers, left⟩
  have goneNew := leftNew.tail leftInv
  have goneInv := leftNew.invariant_after leftInv
  rcases left.leave succeeds with ⟨gone, missing⟩
  rcases gone.run goneNew notAfter
    (Or.inr missing) untouched with
    ⟨afterAnswers, final⟩
  exact ⟨_, _, _, rfl, rfl, rfl, middleAnswers, afterAnswers, final,
    goneNew.missing goneInv notAfter missing⟩

end Visit

/--
An order which is added, never traded and cancelled leaves no trace: the run
without these two calls gives the same answers and the same book.
-/
theorem untouchedOrder (instrumentId : String) (order : Order)
    (before middle after : List BookCall)
    (whole : ∀ call ∈ visitedBy order before middle after,
      call.WholeQuantity)
    (distinct :
      (addedIds (visitedBy order before middle after)).Nodup)
    (untouched : ∀ trade ∈
      (replay BookCall.execute (BookState.initial instrumentId)
        (visitedBy order before middle after)).heap.trades,
          ¬ trade.Names order.orderId)
    (cancelled : ∃ reached,
      OrderBook.cancelOrder order.orderId
          (replay BookCall.execute (BookState.initial instrumentId)
            (before ++ .addOrder order :: middle)) =
        .ok (some order) reached) :
    LeavesNoTrace (BookState.initial instrumentId) order before middle
      after := by
  have new : NewOrders (BookState.initial instrumentId)
      (visitedBy order before middle after) :=
    { whole := whole
      distinct := distinct
      fresh := by
        intro orderId _ resting member
        cases member }
  rcases NewOrders.drop new (BookInv.new _ instrumentId) with
    ⟨startInv, startNew⟩
  rw [replay_append] at cancelled
  have full := replay_append (BookState.initial instrumentId) before
    (.addOrder order ::
      (middle ++ .cancelOrder order.orderId :: after))
  have visited := replay_append
    ((BookCall.addOrder order).execute
      (replay BookCall.execute (BookState.initial instrumentId) before))
    middle (.cancelOrder order.orderId :: after)
  have reduced : replay BookCall.execute (BookState.initial instrumentId)
      (before ++ (middle ++ after)) =
        replay BookCall.execute
          (replay BookCall.execute
            (replay BookCall.execute (BookState.initial instrumentId)
              before) middle) after := by
    rw [replay_append, replay_append]
  rw [visitedBy, full] at untouched
  rcases visit startInv startNew untouched cancelled with
    ⟨arrived, left, gone, rfl, rfl, rfl, middleAnswers, afterAnswers, final,
      missing⟩
  have ended := full.trans visited
  constructor
  · rw [visitedBy, bookAnswers_append, bookAnswers, bookAnswers_append,
      bookAnswers, middleAnswers, afterAnswers, bookAnswers_append,
      bookAnswers_append]
    rw [← length_bookAnswers (BookState.initial instrumentId) before,
      ← length_bookAnswers
        (replay BookCall.execute (BookState.initial instrumentId) before)
        middle]
    exact Sequences.eraseIdx_eraseIdx _ _ _ _ _
  · rw [visitedBy, ended, reduced]
    exact final.recorded
  · rw [visitedBy, ended, reduced]
    exact final.book_eq missing
  · intro resting member
    rw [visitedBy, ended] at member ⊢
    rw [reduced]
    exact final.remaining resting.orderId (missing resting member)

theorem Sample.restingPrice_positive :
    ∀ limit ∈ some (4 : ℚ), 0 < limit := by
  decide +kernel

theorem Sample.restingPrice_pennies :
    ∀ limit ∈ some (4 : ℚ), Whole (limit * 100) := by
  decide +kernel

/-- A bid of another team, which stays below the market. -/
def Sample.restingBid : Order :=
  { Sample.buyFour with
    price := some 4
    orderId := "BID"
    traderId := "BIDDER"
    price_positive := restingPrice_positive
    price_pennies := restingPrice_pennies }

theorem untouchedOrder_restingBid :
    LeavesNoTrace (BookState.initial "CALL") Sample.restingBid
      [.addOrder Sample.sellTen] [.addOrder Sample.buyFour]
      [.cancelOrder "SELL"] := by
  have sound : BookInv
      (replay BookCall.execute (BookState.initial "CALL")
        [.addOrder Sample.sellTen, .addOrder Sample.restingBid,
          .addOrder Sample.buyFour]) :=
    BookInv.of_run (run_replay (by decide +kernel))
  rcases @cancelOrder_resting _ .buy Sample.restingBid sound.shape
      (by decide +kernel) with
    ⟨reached, cancels, _⟩
  exact untouchedOrder "CALL" Sample.restingBid [.addOrder Sample.sellTen]
    [.addOrder Sample.buyFour] [.cancelOrder "SELL"]
    (by decide +kernel) (by decide +kernel) (by decide +kernel)
    ⟨reached, cancels⟩

end InternTradingGame
