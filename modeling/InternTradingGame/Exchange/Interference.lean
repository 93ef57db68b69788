import InternTradingGame.Exchange.VenueProjection

/-!
# Instruments do not interfere

The submissions and cancels of orders on other instruments leave no trace on
an instrument: its book, its collected orders, its trades and the answers to
the calls which concern it are those of the run without them.
-/

namespace InternTradingGame

open Effects

/-! ## The calls which concern an instrument -/

/-- The orders which the calls of a run submit. -/
def submissions (calls : List VenueCall) : List Order :=
  calls.filterMap fun call =>
    match call with
    | .submitOrder order => some order
    | _ => none

theorem mem_submissions {calls : List VenueCall} {order : Order} :
    order ∈ submissions calls ↔ .submitOrder order ∈ calls := by
  rw [submissions, List.mem_filterMap]
  constructor
  · rintro ⟨call, member, equal⟩
    cases call with
    | submitOrder submitted =>
        cases equal
        exact member
    | _ => cases equal
  · intro member
    exact ⟨_, member, rfl⟩

/-- The ids of the orders which are submitted on other instruments. -/
def foreignIds (symbol : String) (calls : List VenueCall) : List String :=
  ((submissions calls).filter (·.instrumentId ≠ symbol)).map Order.orderId

/-- Neither a submission nor a cancel of an order on another instrument. -/
def VenueCall.concerns (symbol : String) (foreign : List String) :
    VenueCall → Bool
  | .submitOrder order => order.instrumentId = symbol
  | .cancelOrder orderId _ => orderId ∉ foreign
  | _ => true

/-- The run without the submissions and cancels of other instruments. -/
def projectRun (symbol : String) (calls : List VenueCall) :
    List VenueCall :=
  calls.filter (VenueCall.concerns symbol (foreignIds symbol calls))

/-! ## The answers which concern an instrument -/

/-- What a call answers: its value, or the exception it raises. -/
inductive Answer where
  | ran (outcome : Except PyError PUnit)
  | submitted (outcome : Except PyError OrderResult)
  | cancelled (outcome : Except PyError Bool)
  | executed
      (outcome : Except PyError (Option (OrderedDict String OrderResult)))

/-- The answer to a call, of a batch the results of one instrument. -/
def VenueCall.answer (symbol : String) :
    VenueCall → ExchangeVenue → Answer
  | .listInstrument instrument, venue =>
      .ran (outcome (ExchangeVenue.listInstrument instrument venue))
  | .submitOrder order, venue =>
      .submitted (outcome (ExchangeVenue.submitOrder order venue))
  | .cancelOrder orderId traderId, venue =>
      .cancelled
        (outcome (ExchangeVenue.cancelOrder orderId traderId venue))
  | .executeBatch draw, venue =>
      .executed
        ((outcome (ExchangeVenue.executeBatch draw venue)).map
          fun results => results.get? symbol)
  | .executeOpeningAuction draw, venue =>
      .ran (outcome (ExchangeVenue.executeOpeningAuction draw venue))
  | .cancelAllOrders, venue =>
      .ran (outcome (ExchangeVenue.cancelAllOrders venue))
  | .checkPhaseTransitions observed draw, venue =>
      .ran (outcome
        (ExchangeVenue.checkPhaseTransitions observed draw venue))

/-- The answers to the calls which concern an instrument, in order. -/
def answers (symbol : String) (foreign : List String) :
    ExchangeVenue → List VenueCall → List Answer
  | _, [] => []
  | venue, call :: rest =>
      if call.concerns symbol foreign then
        call.answer symbol venue ::
          answers symbol foreign (call.execute venue) rest
      else
        answers symbol foreign (call.execute venue) rest

/-! ## What a call takes in -/

/-- A submission adds no other id. -/
theorem submitOrder_known {venue : ExchangeVenue} {order : Order}
    (sound : VenueSound venue)
    (allowed : (VenueCall.submitOrder order).Allowed venue)
    (whole : (VenueCall.submitOrder order).WholeQuantity) :
    ((VenueCall.submitOrder order).execute venue).allOrderIds ⊆
      insert order.orderId venue.allOrderIds := by
  rw [VenueCall.execute]
  refine @finalState_of_ends _ _ _
    (fun next => next.allOrderIds ⊆
      insert order.orderId venue.allOrderIds) ?_
  refine (submitOrder_sound sound allowed whole).mono ?_ ?_
  · rintro result next ⟨returns, _⟩
    cases returns with
    | refused _ => exact Finset.subset_insert _ _
    | collected _ _ => exact Finset.Subset.refl _
    | matched _ _ _ _ _ _ _ => exact Finset.Subset.refl _
  · rintro exception next rfl
    exact Finset.subset_insert _ _

/-- The orders of the heap, as long as none is taken in. -/
def Taken (taken : List Order) (venue : ExchangeVenue) : Prop :=
  venue.market.heap.orders = taken

theorem runBatchEngine_taken {venue : ExchangeVenue}
    (shape : VenueShape venue) (draw : String → ℚ) :
    Ends (ExchangeVenue.runBatchEngine draw) venue
      (fun _ => Taken venue.market.heap.orders)
      (fun _ => Taken venue.market.heap.orders) := by
  have batch := runBatch_traded shape draw
  have applied := runBatchEngine_apply venue draw
  cases evaluated : BatchMatchingEngine.runBatch draw
      venue.pendingOrders { market := venue.market, results := ∅ } with
  | ok results context =>
      rw [evaluated] at applied
      rcases batch.elim_ok evaluated with ⟨_, _, trading⟩
      exact Ends.of_ok applied trading.orders
  | error exception context =>
      rw [evaluated] at applied
      rcases batch.elim_error evaluated with ⟨_, _, trading⟩
      exact Ends.of_error applied trading.orders

theorem executeOpeningAuction_taken {venue : ExchangeVenue}
    (shape : VenueShape venue) (draw : String → ℚ) :
    Ends (ExchangeVenue.executeOpeningAuction draw) venue
      (fun _ => Taken venue.market.heap.orders)
      (fun _ => Taken venue.market.heap.orders) := by
  rw [ExchangeVenue.executeOpeningAuction]
  apply (runBatchEngine_taken shape draw).bind
  intro results next taken
  exact taken

theorem cancelAllOrders_taken {venue : ExchangeVenue}
    (shape : VenueShape venue) :
    Ends ExchangeVenue.cancelAllOrders venue
      (fun _ => Taken venue.market.heap.orders)
      (fun _ => Taken venue.market.heap.orders) :=
  (cancelAllOrders_ends shape).mono
    (fun _ _ closed => congrArg Heap.orders closed.1.heap)
    (fun _ _ impossible => impossible.elim)

theorem listInstrument_taken {venue : ExchangeVenue}
    (shape : VenueShape venue) (instrument : Instrument) :
    Taken venue.market.heap.orders
      ((VenueCall.listInstrument instrument).execute venue) := by
  apply finalState_of_ends
  refine (listInstrument_ends shape instrument).mono ?_ ?_
  · rintro _ next ⟨_, rfl⟩
    rfl
  · rintro _ next rfl
    rfl

theorem cancelOrder_taken {venue : ExchangeVenue}
    (shape : VenueShape venue) (orderId traderId : String) :
    Taken venue.market.heap.orders
      ((VenueCall.cancelOrder orderId traderId).execute venue) := by
  rw [VenueCall.execute]
  rcases cancelOrder_cases_venue shape orderId traderId with
    ⟨order, next, _, evaluates, cancelled⟩ |
      ⟨_, evaluates | ⟨exception, evaluates⟩⟩
  · rw [evaluates]
    exact congrArg Heap.orders cancelled.market.heap
  · rw [evaluates]
    rfl
  · rw [evaluates]
    rfl

theorem executeBatch_taken {venue : ExchangeVenue}
    (shape : VenueShape venue) (draw : String → ℚ) :
    Taken venue.market.heap.orders
      ((VenueCall.executeBatch draw).execute venue) := by
  apply finalState_of_ends
  rw [ExchangeVenue.executeBatch, ends_get_bind]
  by_cases batch : venue.currentPhaseState.executionStyle = .batch
  · rw [if_pos batch]
    exact runBatchEngine_taken shape draw
  · rw [if_neg batch]
    exact rfl

theorem handleTransition_taken {venue : ExchangeVenue}
    (shape : VenueShape venue) (draw : String → ℚ)
    (previous current : PhaseType) :
    Ends (ExchangeVenue.handleTransition draw previous current) venue
      (fun _ => Taken venue.market.heap.orders)
      (fun _ => Taken venue.market.heap.orders) := by
  have same : Taken venue.market.heap.orders venue := rfl
  cases previous <;> cases current <;>
    first
      | exact same
      | exact executeOpeningAuction_taken shape draw
      | exact cancelAllOrders_taken shape

theorem checkPhaseTransitions_taken {venue : ExchangeVenue}
    (shape : VenueShape venue) (observed : PhaseState)
    (draw : String → ℚ) :
    Taken venue.market.heap.orders
      ((VenueCall.checkPhaseTransitions observed draw).execute venue) := by
  have same : Taken venue.market.heap.orders (venue.observing observed) :=
    rfl
  have applied := checkPhaseTransitions_apply venue observed draw
  apply finalState_of_ends
  cases last : venue.lastPhase with
  | none =>
      rw [last] at applied
      exact Ends.of_ok applied same
  | some previous =>
      rw [last] at applied
      by_cases equal : previous = observed.phaseType
      · simp only [if_pos equal] at applied
        exact Ends.of_ok applied same
      · simp only [if_neg equal] at applied
        exact Ends.of_eq applied
          (handleTransition_taken (observing_shape shape observed) draw
            previous observed.phaseType)

/-- A submission takes in the submitted order, or nothing. -/
theorem submitOrder_taken {venue : ExchangeVenue} {submitted : Order}
    (sound : VenueSound venue)
    (allowed : (VenueCall.submitOrder submitted).Allowed venue)
    (whole : (VenueCall.submitOrder submitted).WholeQuantity) :
    ∀ order ∈
        ((VenueCall.submitOrder submitted).execute venue).market.heap.orders,
      order ∈ venue.market.heap.orders ∨ order = submitted := by
  have registered : ∀ order ∈ venue.market.heap.orders ++ [submitted],
      order ∈ venue.market.heap.orders ∨ order = submitted := by
    intro order member
    rcases List.mem_append.mp member with old | new
    · exact Or.inl old
    · exact Or.inr (List.mem_singleton.mp new)
  rw [VenueCall.execute]
  refine @finalState_of_ends _ _ _
    (fun next => ∀ order ∈ next.market.heap.orders,
      order ∈ venue.market.heap.orders ∨ order = submitted) ?_
  refine (submitOrder_sound sound allowed whole).mono ?_ ?_
  · rintro result next ⟨returns, _⟩
    cases returns with
    | refused _ => exact fun _ => Or.inl
    | collected _ _ => exact registered
    | matched _ _ _ _ _ _ trading =>
        intro order member
        have same := congrArg (order ∈ ·) trading.orders
        exact registered order (same.mp member)
  · rintro exception next rfl
    exact fun _ => Or.inl

/-- A call which is no submission takes no order in. -/
theorem execute_taken_of_quiet {venue : ExchangeVenue} {call : VenueCall}
    (shape : VenueShape venue)
    (quiet : ∀ order, call ≠ .submitOrder order) :
    Taken venue.market.heap.orders (call.execute venue) := by
  cases call with
  | listInstrument instrument =>
      exact listInstrument_taken shape instrument
  | submitOrder submitted => exact absurd rfl (quiet submitted)
  | cancelOrder orderId traderId =>
      exact cancelOrder_taken shape orderId traderId
  | executeBatch draw => exact executeBatch_taken shape draw
  | executeOpeningAuction draw =>
      exact finalState_of_ends (executeOpeningAuction_taken shape draw)
  | cancelAllOrders =>
      exact finalState_of_ends (cancelAllOrders_taken shape)
  | checkPhaseTransitions observed draw =>
      exact checkPhaseTransitions_taken shape observed draw

/-- Only a submission takes an order in, and only its own. -/
theorem execute_taken {venue : ExchangeVenue} {call : VenueCall}
    (sound : VenueSound venue) (allowed : call.Allowed venue)
    (whole : call.WholeQuantity) :
    ∀ order ∈ (call.execute venue).market.heap.orders,
      order ∈ venue.market.heap.orders ∨ call = .submitOrder order := by
  intro order member
  by_cases submits : ∃ submitted, call = .submitOrder submitted
  · rcases submits with ⟨submitted, rfl⟩
    exact (submitOrder_taken sound allowed whole order member).imp_right
      fun same => congrArg VenueCall.submitOrder same.symm
  · have taken := execute_taken_of_quiet sound.shape
      fun submitted same => submits ⟨submitted, same⟩
    rw [taken] at member
    exact Or.inl member

/-! ## The view of one instrument -/

/-- The instrument, with all ids which are not foreign. -/
def View.ofInstrument (symbol : String) (foreign : List String) :
    View where
  inside instrumentId := instrumentId = symbol
  mine := { orderId | orderId ∉ foreign }
  seen trade := trade.instrumentId = symbol
  seen_inside _ isSeen := isSeen

section Single

variable {symbol : String} {foreign : List String}
  {left right : ExchangeVenue}

/-- The order has a foreign id exactly on a foreign instrument. -/
def Sorted (symbol : String) (foreign : List String) (order : Order) :
    Prop :=
  order.instrumentId = symbol ↔ order.orderId ∉ foreign

/-- A call which concerns the instrument is one in its view. -/
theorem VenueCall.inView_of_concerns {call : VenueCall}
    (concerns : call.concerns symbol foreign = true)
    (sorted : ∀ order, call = .submitOrder order →
      Sorted symbol foreign order) :
    call.InView (View.ofInstrument symbol foreign) := by
  cases call with
  | submitOrder order =>
      have same : order.instrumentId = symbol := of_decide_eq_true concerns
      exact ⟨concerns, (sorted order rfl).mp same⟩
  | cancelOrder orderId traderId =>
      have mine : orderId ∉ foreign := of_decide_eq_true concerns
      exact mine
  | _ => trivial

/-- A call in the view is answered alike on both venues. -/
theorem ExchangeVenue.Projects.answer_both {call : VenueCall}
    (shows : ExchangeVenue.Shows (View.ofInstrument symbol foreign)
      left right)
    (sound : VenueSound left)
    (inView : call.InView (View.ofInstrument symbol foreign)) :
    call.answer symbol left = call.answer symbol right := by
  have sub :=
    (View.ofInstrument symbol foreign).ids_subset left.allOrderIds
  cases call with
  | listInstrument instrument =>
      exact congrArg Answer.ran (shows.listInstrument_both _).outcome
  | submitOrder order =>
      exact congrArg Answer.submitted
        (submitOrder_both shows inView.1 inView.2).outcome
  | cancelOrder orderId traderId =>
      exact congrArg Answer.cancelled
        (cancelOrder_both shows sub inView).outcome
  | executeBatch draw =>
      rw [VenueCall.answer, VenueCall.answer]
      cases ran : ExchangeVenue.executeBatch draw left with
      | error raised reached =>
          exact ((executeBatch_sound sound draw).elim_error ran).elim
      | ok results reached =>
          rcases executeBatch_follows shows sub ran with
            ⟨others, other, otherRan, _, same⟩
          rw [otherRan]
          have equal : results.get? symbol = others.get? symbol :=
            same symbol (decide_eq_true rfl)
          exact congrArg (fun found => Answer.executed (.ok found)) equal
  | executeOpeningAuction draw =>
      rw [VenueCall.answer, VenueCall.answer]
      cases ran : ExchangeVenue.executeOpeningAuction draw left with
      | error raised reached =>
          exact
            ((executeOpeningAuction_sound sound draw).elim_error ran).elim
      | ok value reached =>
          rcases executeOpeningAuction_follows shows sub ran with
            ⟨other, otherRan, _⟩
          rw [otherRan]
          rfl
  | cancelAllOrders =>
      rw [VenueCall.answer, VenueCall.answer]
      cases ran : ExchangeVenue.cancelAllOrders left with
      | error raised reached =>
          exact ((cancelAllOrders_sound sound).elim_error ran).elim
      | ok value reached =>
          rcases cancelAllOrders_follows shows sub ran with
            ⟨other, otherRan, _⟩
          rw [otherRan]
          rfl
  | checkPhaseTransitions observed draw =>
      rw [VenueCall.answer, VenueCall.answer]
      cases ran :
          ExchangeVenue.checkPhaseTransitions observed draw left with
      | error raised reached =>
          exact ((checkPhaseTransitions_sound sound observed
            draw).elim_error ran).elim
      | ok value reached =>
          rcases checkPhaseTransitions_follows shows sub observed ran with
            ⟨other, otherRan, _⟩
          rw [otherRan]
          rfl

/-- A call which does not concern the instrument is not seen. -/
theorem ExchangeVenue.Projects.execute_alone {call : VenueCall}
    (shows : ExchangeVenue.Shows (View.ofInstrument symbol foreign)
      left right)
    (sound : VenueSound left) (next : VenueSound (call.execute left))
    (owned : (call.execute left).Owned
      (View.ofInstrument symbol foreign))
    (allowed : call.Allowed left) (whole : call.WholeQuantity)
    (other : call.concerns symbol foreign = false)
    (sorted : ∀ order, call = .submitOrder order →
      Sorted symbol foreign order) :
    ExchangeVenue.Shows (View.ofInstrument symbol foreign)
      (call.execute left) right := by
  have sub :=
    (View.ofInstrument symbol foreign).ids_subset left.allOrderIds
  cases call with
  | submitOrder order =>
      have different : ¬ order.instrumentId = symbol :=
        of_decide_eq_false other
      have notMine : order.orderId ∉
          (View.ofInstrument symbol foreign).mine :=
        fun mine => different ((sorted order rfl).mpr mine)
      have reached := submitOrder_alone shows sub other notMine
      refine ExchangeVenue.Projects.shows reached next owned ?_
      rintro orderId ⟨known, mine⟩
      refine ⟨?_, mine⟩
      rcases Finset.mem_insert.mp
        (submitOrder_known sound allowed whole known) with rfl | old
      · exact absurd mine notMine
      · exact old
  | cancelOrder orderId traderId =>
      have isForeign : ¬ orderId ∉ foreign := of_decide_eq_false other
      have reached : ExchangeVenue.Projects
          (View.ofInstrument symbol foreign) _
          ((VenueCall.cancelOrder orderId traderId).execute left) right :=
        cancelOrder_alone shows sub isForeign
      refine ExchangeVenue.Projects.shows reached next owned ?_
      rintro other ⟨known, mine⟩
      exact ⟨execute_knownWithin sound.shape id known, mine⟩
  | listInstrument instrument => cases other
  | executeBatch draw => cases other
  | executeOpeningAuction draw => cases other
  | cancelAllOrders => cases other
  | checkPhaseTransitions observed draw => cases other

end Single

/-! ## Whole runs -/

/-- Two venues agree on an instrument. -/
structure SameInstrument (symbol : String) (left right : ExchangeVenue) :
    Prop where
  book : left.market.orderBooks.get? symbol =
    right.market.orderBooks.get? symbol
  pending : left.pendingOrders.get? symbol =
    right.pendingOrders.get? symbol
  remaining : ∀ order, left.Live order → order.instrumentId = symbol →
    left.market.heap.remaining order = right.market.heap.remaining order
  trades : (left.market.heap.trades.filter (·.instrumentId = symbol)) =
    right.market.heap.trades.filter (·.instrumentId = symbol)
  phase : left.currentPhaseState = right.currentPhaseState

section Runs

variable {symbol : String} {foreign : List String}

/-- What holds of the two venues after every call. -/
structure Beside (symbol : String) (foreign : List String)
    (left right : ExchangeVenue) : Prop where
  shows : ExchangeVenue.Shows (View.ofInstrument symbol foreign)
    left right
  sound : VenueSound left
  owned : left.Owned (View.ofInstrument symbol foreign)

theorem Beside.new (cached baseline : PhaseState) :
    Beside symbol foreign (ExchangeVenue.new cached baseline)
      (ExchangeVenue.new cached baseline) where
  shows :=
    { market :=
        { heap :=
            { remaining := fun _ _ => rfl
              trades := rfl }
          keys := rfl
          books := fun _ _ => rfl
          named := by simp [ExchangeVenue.new]
          within := by simp [ExchangeVenue.new]
          outside := by simp [ExchangeVenue.new]
          bare := by simp [ExchangeVenue.new] }
      instruments := rfl
      known := fun _ _ => Iff.rfl
      phase := rfl
      last := rfl
      pending := (OrderedDict.keepKeys_empty _).symm
      covers := by
        intro collected member
        cases member }
  sound := VenueSound.new cached baseline
  owned := by
    intro order member
    cases member

theorem Beside.sameInstrument {left right : ExchangeVenue}
    (beside : Beside symbol foreign left right) :
    SameInstrument symbol left right := by
  have inside : (View.ofInstrument symbol foreign).inside symbol = true :=
    decide_eq_true rfl
  have shows := beside.shows
  constructor
  · exact shows.market.books symbol inside
  · rw [shows.pending, OrderedDict.get?_keepKeys, if_pos inside]
  · intro order live instrument
    have mine : order.orderId ∉ foreign :=
      beside.owned order (beside.sound.shape.live_taken live)
        (decide_eq_true instrument)
    exact shows.market.heap.remaining order.orderId
      ⟨beside.sound.known order live, mine⟩
  · exact shows.market.heap.trades
  · exact shows.phase

/-- The calls of a run whose ids are all new, sorted by instrument. -/
structure FreshCalls (symbol : String) (foreign : List String)
    (venue : ExchangeVenue) (calls : List VenueCall) : Prop where
  whole : ∀ call ∈ calls, call.WholeQuantity
  sorted : ∀ order ∈ submissions calls, Sorted symbol foreign order
  distinct : ((submissions calls).map Order.orderId).Nodup
  fresh : ∀ order ∈ submissions calls,
    ∀ taken ∈ venue.market.heap.orders, taken.orderId ≠ order.orderId

namespace FreshCalls

variable {venue : ExchangeVenue} {call : VenueCall}
  {rest : List VenueCall}

theorem head_sorted (calls : FreshCalls symbol foreign venue (call :: rest))
    (order : Order) (submits : call = .submitOrder order) :
    Sorted symbol foreign order :=
  calls.sorted order
    (mem_submissions.mpr (submits ▸ List.mem_cons_self))

theorem head_whole
    (calls : FreshCalls symbol foreign venue (call :: rest)) :
    call.WholeQuantity :=
  calls.whole call List.mem_cons_self

theorem head_allowed
    (calls : FreshCalls symbol foreign venue (call :: rest)) :
    call.Allowed venue := by
  cases call with
  | submitOrder order =>
      intro taken member equal
      exact absurd equal
        (calls.fresh order (mem_submissions.mpr List.mem_cons_self)
          taken member)
  | _ => trivial

theorem tail (calls : FreshCalls symbol foreign venue (call :: rest))
    (sound : VenueSound venue) :
    FreshCalls symbol foreign (call.execute venue) rest := by
  have later : ∀ order ∈ submissions rest,
      order ∈ submissions (call :: rest) := by
    intro order member
    rw [mem_submissions] at member ⊢
    exact List.mem_cons_of_mem _ member
  have sub : (submissions rest).Sublist (submissions (call :: rest)) :=
    (List.sublist_cons_self call rest).filterMap _
  constructor
  · exact fun other member =>
      calls.whole other (List.mem_cons_of_mem _ member)
  · exact fun order member => calls.sorted order (later order member)
  · exact (sub.map _).nodup calls.distinct
  · intro order member taken inHeap equal
    rcases execute_taken sound calls.head_allowed calls.head_whole taken
      inHeap with old | rfl
    · exact calls.fresh order (later order member) taken old equal
    · have distinct : ((taken :: submissions rest).map
          Order.orderId).Nodup := calls.distinct
      exact (List.nodup_cons.mp distinct).1
        (equal ▸ List.mem_map_of_mem member)

end FreshCalls

/-- One call, and what it answers if it concerns the instrument. -/
theorem Beside.step {left right : ExchangeVenue} {call : VenueCall}
    {rest : List VenueCall} (beside : Beside symbol foreign left right)
    (calls : FreshCalls symbol foreign left (call :: rest)) :
    if call.concerns symbol foreign = true then
      Beside symbol foreign (call.execute left) (call.execute right) ∧
        call.answer symbol left = call.answer symbol right
    else
      Beside symbol foreign (call.execute left) right := by
  have allowed := calls.head_allowed
  have whole := calls.head_whole
  have sound := venueStep_sound beside.sound whole ⟨allowed, rfl⟩
  have owned : (call.execute left).Owned
      (View.ofInstrument symbol foreign) := by
    intro order member inside
    rcases execute_taken beside.sound allowed whole order member with
      old | submits
    · exact beside.owned order old inside
    · exact (calls.head_sorted order submits).mp
        (of_decide_eq_true inside)
  by_cases concerns : call.concerns symbol foreign = true
  · rw [if_pos concerns]
    have inView := VenueCall.inView_of_concerns concerns calls.head_sorted
    exact ⟨⟨ExchangeVenue.Projects.execute_both beside.shows
      beside.sound sound owned inView,
      sound, owned⟩, ExchangeVenue.Projects.answer_both beside.shows
      beside.sound inView⟩
  · rw [if_neg concerns]
    have other := Bool.eq_false_of_not_eq_true concerns
    exact ⟨ExchangeVenue.Projects.execute_alone beside.shows
      beside.sound sound owned allowed whole other calls.head_sorted,
      sound, owned⟩

/-- Both runs stay beside each other and answer alike. -/
theorem Beside.run {calls : List VenueCall} {left right : ExchangeVenue}
    (beside : Beside symbol foreign left right)
    (fresh : FreshCalls symbol foreign left calls) :
    Beside symbol foreign (replay VenueCall.execute left calls)
        (replay VenueCall.execute right
          (calls.filter (VenueCall.concerns symbol foreign))) ∧
      answers symbol foreign left calls =
        answers symbol foreign right
          (calls.filter (VenueCall.concerns symbol foreign)) := by
  induction calls generalizing left right with
  | nil => exact ⟨beside, rfl⟩
  | cons call rest induction =>
      have step := beside.step fresh
      have later := fresh.tail beside.sound
      by_cases concerns : call.concerns symbol foreign = true
      · rw [if_pos concerns] at step
        rcases induction step.1 later with ⟨reached, same⟩
        rw [List.filter_cons_of_pos concerns, answers, answers,
          if_pos concerns, if_pos concerns, step.2, same]
        exact ⟨reached, rfl⟩
      · rw [if_neg concerns] at step
        rcases induction step later with ⟨reached, same⟩
        rw [List.filter_cons_of_neg concerns, answers, if_neg concerns,
          same]
        exact ⟨reached, rfl⟩

end Runs

/-- With distinct ids, the foreign ids are those of foreign orders. -/
theorem sorted_foreignIds {symbol : String} {calls : List VenueCall}
    (distinct : ((submissions calls).map Order.orderId).Nodup) :
    ∀ order ∈ submissions calls,
      Sorted symbol (foreignIds symbol calls) order := by
  intro order member
  constructor
  · intro same isForeign
    rcases List.mem_map.mp isForeign with ⟨other, otherMember, equal⟩
    rcases List.mem_filter.mp otherMember with ⟨submitted, different⟩
    have identical : other = order :=
      List.inj_on_of_nodup_map distinct submitted member equal
    exact of_decide_eq_true different (identical ▸ same)
  · intro notForeign
    by_contra different
    apply notForeign
    exact List.mem_map_of_mem
      (List.mem_filter.mpr ⟨member, decide_eq_true different⟩)

/--
A run and the run without the submissions and cancels of orders on other
instruments end with the same book, collected orders and trades of the
instrument, and answer alike to all the calls which concern it.
-/
theorem noInterference (cached baseline : PhaseState)
    (calls : List VenueCall) (symbol : String)
    (whole : ∀ call ∈ calls, call.WholeQuantity)
    (distinct : ((submissions calls).map Order.orderId).Nodup) :
    SameInstrument symbol
        (replay VenueCall.execute (ExchangeVenue.new cached baseline)
          calls)
        (replay VenueCall.execute (ExchangeVenue.new cached baseline)
          (projectRun symbol calls)) ∧
      answers symbol (foreignIds symbol calls)
          (ExchangeVenue.new cached baseline) calls =
        answers symbol (foreignIds symbol calls)
          (ExchangeVenue.new cached baseline)
          (projectRun symbol calls) := by
  have fresh : FreshCalls symbol (foreignIds symbol calls)
      (ExchangeVenue.new cached baseline) calls :=
    { whole := whole
      sorted := sorted_foreignIds distinct
      distinct := distinct
      fresh := by
        intro order _ taken member
        cases member }
  have reached := (Beside.new cached baseline).run fresh
  exact ⟨reached.1.sameInstrument, reached.2⟩

/-- A sell order on each of two instruments; one of them is traded. -/
def Sample.twoInstruments : List VenueCall :=
  [ .listInstrument { symbol := "CALL" },
    .listInstrument { symbol := "PUT" },
    .checkPhaseTransitions (PhaseState.default .continuous) fun _ => 0,
    .submitOrder { sellTen with instrumentId := "PUT", orderId := "PUT-1" },
    .submitOrder sellTen,
    .cancelOrder "PUT-1" "MAKER",
    .submitOrder buyFour,
    .cancelOrder "SELL" "MAKER" ]

theorem noInterference_twoInstruments :
    (projectRun "CALL" Sample.twoInstruments).length = 6 ∧
    SameInstrument "CALL"
        (replay VenueCall.execute
          (ExchangeVenue.new (PhaseState.default .closed)
            (PhaseState.default .closed))
          Sample.twoInstruments)
        (replay VenueCall.execute
          (ExchangeVenue.new (PhaseState.default .closed)
            (PhaseState.default .closed))
          (projectRun "CALL" Sample.twoInstruments)) ∧
      answers "CALL" (foreignIds "CALL" Sample.twoInstruments)
          (ExchangeVenue.new (PhaseState.default .closed)
            (PhaseState.default .closed))
          Sample.twoInstruments =
        answers "CALL" (foreignIds "CALL" Sample.twoInstruments)
          (ExchangeVenue.new (PhaseState.default .closed)
            (PhaseState.default .closed))
          (projectRun "CALL" Sample.twoInstruments) :=
  ⟨by decide +kernel,
    noInterference _ _ Sample.twoInstruments "CALL" (by decide +kernel)
      (by decide +kernel)⟩

end InternTradingGame
