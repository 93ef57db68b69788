import InternTradingGame.Exchange.DayClose

/-!
# The daily cycle

A venue which starts empty and closed observes the phases of its schedule:
closed, pre-open, opening auction, continuous, closed again, day after day.
`CycleEffect` says once what a step of such a day can do.  The two stores of
orders take turns: before the opening only the batch engine holds orders,
and afterwards only the books do.
-/

namespace InternTradingGame

open Effects

/-! ## Runs along the schedule -/

/-- The phase the schedule puts after a phase. -/
def PhaseType.next : PhaseType → PhaseType
  | .closed => .preOpen
  | .preOpen => .openingAuction
  | .openingAuction => .continuous
  | .continuous => .closed

/--
Participants list, submit and cancel.  A check reports the default state of
the current phase or of the next one.
-/
def VenueCall.FollowsCycle : VenueCall → ExchangeVenue → Prop
  | .listInstrument _, _ => True
  | .submitOrder order, _ => Whole order.quantity
  | .cancelOrder _ _, _ => True
  | .checkPhaseTransitions observed _, venue =>
      observed = PhaseState.default venue.currentPhaseState.phaseType ∨
        observed =
          PhaseState.default venue.currentPhaseState.phaseType.next
  | .executeBatch _, _ => False
  | .executeOpeningAuction _, _ => False
  | .cancelAllOrders, _ => False

instance (call : VenueCall) (venue : ExchangeVenue) :
    Decidable (call.FollowsCycle venue) := by
  rcases call
  case submitOrder order =>
      exact inferInstanceAs (Decidable (Whole order.quantity))
  case checkPhaseTransitions observed draw =>
      exact inferInstanceAs (Decidable (_ ∨ _))
  case listInstrument instrument => exact inferInstanceAs (Decidable True)
  case cancelOrder orderId traderId =>
      exact inferInstanceAs (Decidable True)
  case executeBatch draw => exact inferInstanceAs (Decidable False)
  case executeOpeningAuction draw => exact inferInstanceAs (Decidable False)
  case cancelAllOrders => exact inferInstanceAs (Decidable False)

/-- One call of a day that follows the schedule, with an id of its own. -/
abbrev CycleStep : ExchangeVenue → VenueCall → ExchangeVenue → Prop :=
  GuardedStep
    (fun call venue => call.Allowed venue ∧ call.FollowsCycle venue)
    VenueCall.execute

theorem venueStep_of_cycleStep {venue next : ExchangeVenue}
    {call : VenueCall} (step : CycleStep venue call next) :
    VenueStep venue call next :=
  ⟨step.1.1, step.2⟩

/-- The calls of the schedule have whole quantities. -/
theorem VenueCall.FollowsCycle.whole {call : VenueCall}
    {venue : ExchangeVenue} (follows : call.FollowsCycle venue) :
    call.WholeQuantity := by
  cases call with
  | submitOrder order => exact follows
  | _ => trivial

/-- The market has not opened: no order may rest and no trade may be made. -/
def PhaseType.BeforeOpening (phase : PhaseType) : Prop :=
  phase = .closed ∨ phase = .preOpen

/-! ## What a step can do -/

/-- A step on a venue that keeps its phase and its collected orders. -/
structure StaysInPhase (venue next : ExchangeVenue) : Prop where
  phase : next.currentPhaseState = venue.currentPhaseState
  last : next.lastPhase = venue.lastPhase
  pending : next.pendingOrders = venue.pendingOrders

/-- A step which makes no trade and lets nothing more rest. -/
structure AddsNothing (venue next : ExchangeVenue) : Prop where
  heap : next.market.heap = venue.market.heap
  rests : ∀ order, next.market.Rests order → venue.market.Rests order

/-- The call is a check which finds the opening auction. -/
def VenueCall.OpensAuction : VenueCall → Prop
  | .checkPhaseTransitions observed _ =>
      observed.phaseType = .openingAuction
  | _ => False

/-- What a call of the schedule can do to a venue in a phase. -/
inductive CycleEffect (venue : ExchangeVenue) :
    VenueCall → PhaseType → ExchangeVenue → Prop where
  | quiet {call : VenueCall} {phase : PhaseType} {next : ExchangeVenue}
      (opensNothing : phase = .preOpen → ¬ call.OpensAuction)
      (stays : StaysInPhase venue next) (adds : AddsNothing venue next) :
      CycleEffect venue call phase next
  | collected {order : Order} (takes : Takes venue order) :
      CycleEffect venue (.submitOrder order) .preOpen
        (venue.collected order)
  | matched {order : Order} {market : Market}
      (takes : Takes venue order) :
      CycleEffect venue (.submitOrder order) .continuous
        (venue.submitted order market)
  | auction {call : VenueCall} {next : ExchangeVenue}
      (opens : call.OpensAuction)
      (phase : next.currentPhaseState = PhaseState.default .openingAuction)
      (last : next.lastPhase = some .openingAuction)
      (pending : next.pendingOrders = ∅)
      (orders : venue.market.heap.orders ⊆ next.market.heap.orders) :
      CycleEffect venue call .preOpen next
  | moved {call : VenueCall} {phase : PhaseType} {next : ExchangeVenue}
      (notPreOpen : phase ≠ .preOpen)
      (current : next.currentPhaseState = PhaseState.default phase.next)
      (last : next.lastPhase = some phase.next)
      (pending : next.pendingOrders = venue.pendingOrders)
      (adds : AddsNothing venue next)
      (cleared : phase = .continuous →
        ∀ order, ¬ next.market.Rests order) :
      CycleEffect venue call phase next

/-- Which store holds orders in which phase. -/
structure InCycle (phase : PhaseType) (venue : ExchangeVenue) :
    Prop where
  sound : VenueSound venue
  current : venue.currentPhaseState = PhaseState.default phase
  last : venue.lastPhase = some phase
  pending : phase ≠ .preOpen → venue.pendingOrders = ∅
  empty : phase.BeforeOpening → ∀ order, ¬ venue.market.Rests order

section Effect

variable {phase : PhaseType} {venue next : ExchangeVenue}

/-- A call which is no check and leaves the venue alone. -/
theorem CycleEffect.none {call : VenueCall}
    (opensNothing : ¬ call.OpensAuction) :
    CycleEffect venue call phase venue :=
  .quiet (fun _ => opensNothing) ⟨rfl, rfl, rfl⟩
    ⟨rfl, fun _ rests => rests⟩

/-- The default flags take orders before the opening and afterwards. -/
theorem submitted_effect (inCycle : InCycle phase venue) {order : Order}
    (allowed : (VenueCall.submitOrder order).Allowed venue)
    (whole : Whole order.quantity) :
    CycleEffect venue (.submitOrder order) phase
      ((VenueCall.submitOrder order).execute venue) := by
  have quiet : CycleEffect venue (.submitOrder order) phase venue :=
    .none id
  have ends := submitOrder_sound inCycle.sound allowed whole
  rw [VenueCall.execute]
  cases evaluated : ExchangeVenue.submitOrder order venue with
  | error exception next =>
      rw [finalState_error, ends.elim_error evaluated]
      exact quiet
  | ok result next =>
      rw [finalState_ok]
      cases (ends.elim_ok evaluated).1 with
      | refused _ => exact quiet
      | collected takes batch =>
          have open_ := takes.allowed
          rw [ExchangeVenue.shouldUseBatchEngine] at batch
          rw [inCycle.current] at open_ batch
          cases phase with
          | preOpen => exact .collected takes
          | openingAuction => cases open_
          | continuous => cases batch
          | closed => cases open_
      | matched takes continuous _ _ _ _ _ =>
          have open_ := takes.allowed
          rw [ExchangeVenue.shouldUseBatchEngine] at continuous
          rw [inCycle.current] at open_ continuous
          cases phase with
          | preOpen => cases continuous
          | openingAuction => cases open_
          | continuous => exact .matched takes
          | closed => cases open_

theorem cancelled_effect (inCycle : InCycle phase venue)
    (orderId traderId : String) :
    CycleEffect venue (.cancelOrder orderId traderId) phase
      ((VenueCall.cancelOrder orderId traderId).execute venue) := by
  have quiet :
      CycleEffect venue (.cancelOrder orderId traderId) phase venue :=
    .none id
  rw [VenueCall.execute]
  rcases cancelOrder_cases_venue inCycle.sound.shape orderId traderId with
    ⟨order, next, _, evaluates, cancelled⟩ |
      ⟨_, evaluates | ⟨exception, evaluates⟩⟩
  · rw [evaluates, finalState_ok]
    apply CycleEffect.quiet (fun _ => id)
    · rw [cancelled.rest]
      exact ⟨rfl, rfl, rfl⟩
    · exact ⟨cancelled.market.heap,
        fun other rests => ((cancelled.market.rests other).mp rests).1⟩
  · rw [evaluates]
    exact quiet
  · rw [evaluates]
    exact quiet

theorem listed_effect (inCycle : InCycle phase venue)
    (instrument : Instrument) :
    CycleEffect venue (.listInstrument instrument) phase
      ((VenueCall.listInstrument instrument).execute venue) := by
  apply finalState_of_ends
  refine (listInstrument_ends inCycle.sound.shape instrument).mono ?_ ?_
  · rintro _ next ⟨_, rfl⟩
    apply CycleEffect.quiet
    · exact fun _ => id
    · exact ⟨rfl, rfl, rfl⟩
    · exact ⟨rfl, fun _ rests => Market.rests_listing rests⟩
  · rintro _ next rfl
    exact .none id

/-- The check that reports the next phase acts on the transition. -/
theorem moved_effect (inCycle : InCycle phase venue)
    (draw : String → ℚ) :
    CycleEffect venue
      (.checkPhaseTransitions (PhaseState.default phase.next) draw) phase
      ((VenueCall.checkPhaseTransitions
        (PhaseState.default phase.next) draw).execute venue) := by
  have observing :=
    inCycle.sound.observing (PhaseState.default phase.next)
  have applied := checkPhaseTransitions_apply venue
    (PhaseState.default phase.next) draw
  have observes : (PhaseState.default phase.next).phaseType = phase.next := by
    cases phase <;> rfl
  have differs : phase ≠ phase.next := by
    cases phase <;> decide
  rw [inCycle.last] at applied
  simp only [observes, if_neg differs] at applied
  rw [VenueCall.execute, applied]
  cases phase with
  | preOpen =>
      have runs := executeOpeningAuction_ends observing.shape draw
      have empties := executeOpeningAuction_empties observing draw
      change CycleEffect venue _ .preOpen
        (finalState (ExchangeVenue.executeOpeningAuction draw
          (venue.observing (PhaseState.default .openingAuction))))
      cases evaluated : ExchangeVenue.executeOpeningAuction draw
          (venue.observing (PhaseState.default .openingAuction)) with
      | error exception next =>
          exact (empties.elim_error evaluated).elim
      | ok value next =>
          have advances := (runs.elim_ok evaluated).1
          have equal := empties.elim_ok evaluated
          rw [finalState_ok]
          apply CycleEffect.auction
          · change PhaseType.openingAuction = _
            rfl
          · rw [equal]
            rfl
          · rw [equal]
            rfl
          · rw [equal]
          · exact advances.2.orders
  | openingAuction =>
      exact .moved (by decide) rfl rfl rfl
        ⟨rfl, fun _ rests => rests⟩
        (fun impossible => by cases impossible)
  | continuous =>
      apply finalState_of_ends
      refine (cancelAllOrders_ends observing.shape).mono ?_
        (fun _ _ impossible => impossible.elim)
      rintro _ next ⟨closing, empty⟩
      rcases closing.rest with ⟨known, equal⟩
      apply CycleEffect.moved (by decide)
      · rw [equal]
        rfl
      · rw [equal]
        rfl
      · rw [equal]
        rfl
      · exact ⟨closing.heap, closing.rests⟩
      · exact fun _ => empty
  | closed =>
      exact .moved (by decide) rfl rfl rfl
        ⟨rfl, fun _ rests => rests⟩
        (fun impossible => by cases impossible)

/-- The check that reports the same phase changes nothing. -/
theorem stayed_effect (inCycle : InCycle phase venue)
    (draw : String → ℚ) :
    CycleEffect venue
      (.checkPhaseTransitions (PhaseState.default phase) draw) phase
      ((VenueCall.checkPhaseTransitions
        (PhaseState.default phase) draw).execute venue) := by
  have applied := checkPhaseTransitions_apply venue
    (PhaseState.default phase) draw
  have observes : (PhaseState.default phase).phaseType = phase := by
    cases phase <;> rfl
  rw [inCycle.last] at applied
  simp only [observes, if_true] at applied
  rw [VenueCall.execute, applied, finalState_ok]
  apply CycleEffect.quiet
  · rintro rfl opens
    cases opens
  · refine ⟨inCycle.current.symm, ?_, rfl⟩
    change some (PhaseState.default phase).phaseType = venue.lastPhase
    rw [observes, inCycle.last]
  · exact ⟨rfl, fun _ rests => rests⟩

/-- What every call of the schedule does. -/
theorem cycleStep_effect (inCycle : InCycle phase venue)
    {call : VenueCall} (step : CycleStep venue call next) :
    CycleEffect venue call phase next := by
  rcases step with ⟨⟨allowed, follows⟩, rfl⟩
  have observes : venue.currentPhaseState.phaseType = phase := by
    rw [inCycle.current]
    cases phase <;> rfl
  cases call with
  | listInstrument instrument => exact listed_effect inCycle instrument
  | submitOrder order => exact submitted_effect inCycle allowed follows
  | cancelOrder orderId traderId =>
      exact cancelled_effect inCycle orderId traderId
  | checkPhaseTransitions observed draw =>
      rcases follows with rfl | rfl
      · rw [observes]
        exact stayed_effect inCycle draw
      · rw [observes]
        exact moved_effect inCycle draw
  | executeBatch draw => exact follows.elim
  | executeOpeningAuction draw => exact follows.elim
  | cancelAllOrders => exact follows.elim

end Effect

/-! ## The two stores take turns -/

section Cycle

variable {phase : PhaseType} {venue next : ExchangeVenue}

/-- A step which adds nothing leaves the venue in its phase. -/
theorem InCycle.quiet (inCycle : InCycle phase venue)
    (sound : VenueSound next) (stays : StaysInPhase venue next)
    (adds : AddsNothing venue next) : InCycle phase next where
  sound := sound
  current := stays.phase.trans inCycle.current
  last := stays.last.trans inCycle.last
  pending other := stays.pending.trans (inCycle.pending other)
  empty before order rests :=
    inCycle.empty before order (adds.rests order rests)

/-- Before the opening the batch engine may collect more. -/
theorem InCycle.collected (inCycle : InCycle .preOpen venue)
    {order : Order} (sound : VenueSound (venue.collected order)) :
    InCycle .preOpen (venue.collected order) where
  sound := sound
  current := inCycle.current
  last := inCycle.last
  pending other := absurd rfl other
  empty := inCycle.empty

theorem PhaseType.not_beforeOpening_openingAuction :
    ¬ PhaseType.openingAuction.BeforeOpening := by
  rintro (impossible | impossible)
  · cases impossible
  · cases impossible

theorem PhaseType.not_beforeOpening_continuous :
    ¬ PhaseType.continuous.BeforeOpening := by
  rintro (impossible | impossible)
  · cases impossible
  · cases impossible

/-- The phase after a step and which store holds orders in it. -/
theorem InCycle.step (inCycle : InCycle phase venue)
    {call : VenueCall} (step : CycleStep venue call next) :
    ∃ after, InCycle after next := by
  have sound := venueStep_sound inCycle.sound step.1.2.whole
    (venueStep_of_cycleStep step)
  cases cycleStep_effect inCycle step with
  | quiet _ stays adds =>
      exact ⟨phase, inCycle.quiet sound stays adds⟩
  | collected takes => exact ⟨.preOpen, inCycle.collected sound⟩
  | matched takes =>
      exact ⟨.continuous,
        { sound
          current := inCycle.current
          last := inCycle.last
          pending := inCycle.pending
          empty := fun before =>
            absurd before PhaseType.not_beforeOpening_continuous }⟩
  | auction _ current last pending _ =>
      exact ⟨.openingAuction,
        { sound, current, last
          pending := fun _ => pending
          empty := fun before =>
            absurd before PhaseType.not_beforeOpening_openingAuction }⟩
  | moved notPreOpen current last pending adds cleared =>
      refine ⟨phase.next,
        { sound, current, last
          pending := fun _ => pending.trans (inCycle.pending notPreOpen)
          empty := ?_ }⟩
      intro before order rests
      cases phase with
      | preOpen => exact notPreOpen rfl
      | openingAuction =>
          exact PhaseType.not_beforeOpening_continuous before
      | continuous => exact cleared rfl order rests
      | closed =>
          exact inCycle.empty (Or.inl rfl) order (adds.rests order rests)

theorem InCycle.new :
    InCycle .closed
      (ExchangeVenue.new (PhaseState.default .closed)
        (PhaseState.default .closed)) where
  sound := VenueSound.new _ _
  current := rfl
  last := rfl
  pending _ := rfl
  empty := by
    rintro _ order ⟨instrumentId, book, found, _⟩
    simp [ExchangeVenue.new] at found

/-- Every state of the schedule is in one of its phases. -/
theorem InCycle.of_run {start : ExchangeVenue} {calls : List VenueCall}
    (inCycle : InCycle phase start)
    (run : Run CycleStep start calls venue) :
    ∃ after, InCycle after venue :=
  run.invariant (fun state => ∃ after, InCycle after state)
    ⟨phase, inCycle⟩
    fun _ _ _ reached step => by
      rcases reached with ⟨current, inPhase⟩
      exact inPhase.step step

theorem InCycle.phaseType (inCycle : InCycle phase venue) :
    venue.currentPhaseState.phaseType = phase := by
  rw [inCycle.current]
  cases phase <;> rfl

end Cycle

/-! ## Every order before the opening is processed once -/

/-- The call runs the batch engine. -/
def VenueCall.RunsBatch : VenueCall → ExchangeVenue → Prop
  | .executeBatch _, venue =>
      venue.currentPhaseState.executionStyle = .batch
  | .executeOpeningAuction _, _ => True
  | .checkPhaseTransitions observed _, venue =>
      venue.lastPhase = some .preOpen ∧
        observed.phaseType = .openingAuction
  | _, _ => False

/-- The call runs a batch with the order in it. -/
def VenueCall.Processes (call : VenueCall) (venue : ExchangeVenue)
    (order : Order) : Prop :=
  call.RunsBatch venue ∧ venue.Pending order

section Processed

variable {phase : PhaseType} {venue next : ExchangeVenue} {order : Order}

/-- In the pre-open phase the batch runs when the auction is found. -/
theorem runsBatch_iff {call : VenueCall}
    (inCycle : InCycle .preOpen venue) (follows : call.FollowsCycle venue) :
    call.RunsBatch venue ↔ call.OpensAuction := by
  cases call with
  | checkPhaseTransitions observed draw =>
      exact and_iff_right inCycle.last
  | listInstrument instrument => exact Iff.rfl
  | submitOrder order => exact Iff.rfl
  | cancelOrder orderId traderId => exact Iff.rfl
  | executeBatch draw => exact follows.elim
  | executeOpeningAuction draw => exact follows.elim
  | cancelAllOrders => exact Iff.rfl

/-- What is collected stays collected when one more order comes. -/
theorem ExchangeVenue.Pending.collected {candidate : Order}
    (pending : venue.Pending order) :
    (venue.collected candidate).Pending order := by
  rcases pending with ⟨instrumentId, orders, found, member⟩
  by_cases same : instrumentId = candidate.instrumentId
  · refine ⟨instrumentId, orders ++ [candidate], ?_,
      List.mem_append_left _ member⟩
    rw [ExchangeVenue.collected, BatchMatchingEngine.collect, ← same,
      OrderedDict.get?_set_self, found]
    rfl
  · refine ⟨instrumentId, orders, ?_, member⟩
    rw [ExchangeVenue.collected, BatchMatchingEngine.collect,
      OrderedDict.get?_set_ne _ _ same]
    exact found

/-- An order which has just been collected waits. -/
theorem pending_collected : (venue.collected order).Pending order := by
  refine ⟨order.instrumentId,
    (venue.pendingOrders.get? order.instrumentId).getD [] ++ [order],
    ?_, List.mem_append_right _ (List.mem_singleton_self order)⟩
  rw [ExchangeVenue.collected, BatchMatchingEngine.collect,
    OrderedDict.get?_set_self]

/-- The order has been taken in, and no batch is going to process it. -/
def Processed (order : Order) (venue : ExchangeVenue) : Prop :=
  order ∈ venue.market.heap.orders ∧ ¬ venue.Pending order

theorem not_pending_of_empty (empty : venue.pendingOrders = ∅) :
    ¬ venue.Pending order := by
  rintro ⟨instrumentId, orders, found, _⟩
  rw [empty] at found
  simp at found

theorem Processed.step (inCycle : InCycle phase venue)
    (processed : Processed order venue) {call : VenueCall}
    (step : CycleStep venue call next) : Processed order next := by
  rcases processed with ⟨taken, notPending⟩
  have advances := venueStep_advances inCycle.sound.shape
    (venueStep_of_cycleStep step)
  refine ⟨advances.2.orders taken, ?_⟩
  cases cycleStep_effect inCycle step with
  | quiet _ stays _ =>
      rw [ExchangeVenue.Pending, stays.pending]
      exact notPending
  | collected takes =>
      rintro ⟨instrumentId, orders, found, member⟩
      rcases get?_collect found order member with
        ⟨rfl, _⟩ | ⟨old, stored, inOld⟩
      · exact takes.fresh order taken rfl
      · exact notPending ⟨instrumentId, old, stored, inOld⟩
  | matched _ => exact notPending
  | auction _ _ _ pending _ => exact not_pending_of_empty pending
  | moved _ _ _ pending _ _ =>
      rw [ExchangeVenue.Pending, pending]
      exact notPending

/-- The order waits for the auction of the day. -/
structure AwaitsAuction (order : Order) (venue : ExchangeVenue) :
    Prop where
  inCycle : InCycle .preOpen venue
  pending : venue.Pending order

/-- The auction processes the order, and nothing else touches it. -/
theorem AwaitsAuction.step (awaits : AwaitsAuction order venue)
    {call : VenueCall} (step : CycleStep venue call next) :
    (call.OpensAuction → Processed order next) ∧
      (¬ call.OpensAuction → AwaitsAuction order next) := by
  have taken := awaits.inCycle.sound.shape.live_taken
    (Or.inr awaits.pending)
  have sound := venueStep_sound awaits.inCycle.sound step.1.2.whole
    (venueStep_of_cycleStep step)
  cases cycleStep_effect awaits.inCycle step with
  | quiet opensNothing stays adds =>
      refine ⟨fun opens => absurd opens (opensNothing rfl), fun _ => ?_⟩
      refine ⟨awaits.inCycle.quiet sound stays adds, ?_⟩
      rw [ExchangeVenue.Pending, stays.pending]
      exact awaits.pending
  | collected takes =>
      exact ⟨fun opens => opens.elim, fun _ =>
        ⟨awaits.inCycle.collected sound, awaits.pending.collected⟩⟩
  | auction opens _ _ pending orders =>
      exact ⟨fun _ => ⟨orders taken, not_pending_of_empty pending⟩,
        fun notOpens => absurd opens notOpens⟩
  | moved notPreOpen _ _ _ _ _ => exact absurd rfl notPreOpen

/-- What the steps after a submission do to the order. -/
theorem AwaitsAuction.run {calls : List VenueCall}
    (awaits : AwaitsAuction order venue)
    (run : Run CycleStep venue calls next) :
    (∀ call ∈ calls, ¬ call.OpensAuction) ∧ AwaitsAuction order next ∨
      (∃ call ∈ calls, call.OpensAuction) ∧
        (∃ phase, InCycle phase next) ∧ Processed order next := by
  refine run.induction_history
    (fun history state =>
      (∀ call ∈ history, ¬ call.OpensAuction) ∧
          AwaitsAuction order state ∨
        (∃ call ∈ history, call.OpensAuction) ∧
          (∃ phase, InCycle phase state) ∧ Processed order state)
    (Or.inl ⟨by simp, awaits⟩) ?_
  rintro history state call reached _
    (⟨none, waits⟩ | ⟨⟨opening, member, opens⟩, ⟨phase, inPhase⟩, done⟩)
    step
  · have inNext := waits.inCycle.step step
    by_cases opens : call.OpensAuction
    · exact Or.inr
        ⟨⟨call, List.mem_append_right _ (List.mem_singleton_self call),
          opens⟩, inNext, (waits.step step).1 opens⟩
    · refine Or.inl ⟨?_, (waits.step step).2 opens⟩
      intro other inHistory
      rcases List.mem_append.mp inHistory with early | last
      · exact none other early
      · rw [List.mem_singleton.mp last]
        exact opens
  · exact Or.inr
      ⟨⟨opening, List.mem_append_left _ member, opens⟩,
        inPhase.step step, done.step inPhase step⟩

/-- A submission which returns before the opening has been collected. -/
theorem awaitsAuction_of_submits (inCycle : InCycle phase venue)
    (preOpen : venue.currentPhaseState.phaseType = .preOpen)
    (step : CycleStep venue (.submitOrder order) next)
    {result : OrderResult}
    (submits : ExchangeVenue.submitOrder order venue = .ok result next) :
    Takes venue order ∧ AwaitsAuction order next := by
  obtain rfl : phase = .preOpen := inCycle.phaseType.symm.trans preOpen
  have ends := submitOrder_sound inCycle.sound step.1.1 step.1.2
  rcases ends.elim_ok submits with ⟨returns, sound⟩
  cases returns with
  | refused closed =>
      rw [inCycle.current] at closed
      cases closed
  | collected takes _ =>
      exact ⟨takes, inCycle.collected sound, pending_collected⟩
  | matched takes continuous _ _ _ _ _ =>
      rw [ExchangeVenue.shouldUseBatchEngine, inCycle.current] at continuous
      cases continuous

end Processed

/-! ## The daily cycle -/

/-- No order rests in the book. -/
def OrderBook.IsEmpty (book : OrderBook) : Prop :=
  book.bids = [] ∧ book.asks = []

theorem BookShape.isEmpty {book : OrderBook} (shape : BookShape book)
    (none : ∀ order, order ∉ book.resting) : book.IsEmpty := by
  have empty : ∀ side, book.levels side = [] := by
    intro side
    rw [List.eq_nil_iff_forall_not_mem]
    intro level member
    rcases List.exists_mem_of_ne_nil _
        ((shape.side side).occupied level member) with
      ⟨order, inLevel⟩
    exact none order (OrderBook.mem_resting_of_mem
      (OrderBook.mem_restingOn_iff.mpr ⟨level, member, inLevel⟩))
  exact ⟨empty .buy, empty .sell⟩

/-- What holds in every state of the schedule. -/
structure CycleState (venue : ExchangeVenue) : Prop where
  pending : venue.currentPhaseState.phaseType ≠ .preOpen →
    venue.pendingOrders = ∅
  empty : venue.currentPhaseState.phaseType.BeforeOpening →
    ∀ instrumentId book,
      venue.market.orderBooks.get? instrumentId = some book →
        book.IsEmpty
  uncrossed : ∀ instrumentId book,
    venue.market.orderBooks.get? instrumentId = some book →
      ∀ bid ∈ book.bids, ∀ ask ∈ book.asks, bid.price < ask.price

/-- What every step of the schedule does to a venue. -/
structure CycleChange (venue : ExchangeVenue) (call : VenueCall)
    (next : ExchangeVenue) : Prop where
  noTrade : next.currentPhaseState.phaseType.BeforeOpening →
    next.market.heap.trades = venue.market.heap.trades
  refused :
    venue.currentPhaseState.phaseType = .openingAuction ∨
        venue.currentPhaseState.phaseType = .closed →
      (∃ order, call = .submitOrder order) ∨
          (∃ orderId traderId, call = .cancelOrder orderId traderId) →
        next = venue

/--
The calls of a run which process an order submitted before the opening: the
check which finds the auction of its day, and no other.
-/
def ProcessedByAuction (start : ExchangeVenue)
    (before after : List VenueCall) (order : Order) : Prop :=
  ∀ earlier call later venue,
    before ++ .submitOrder order :: after = earlier ++ call :: later →
      Run CycleStep start earlier venue →
        (call.Processes venue order ↔
          call.OpensAuction ∧
            ∃ middle, earlier = before ++ .submitOrder order :: middle ∧
              ∀ other ∈ middle, ¬ other.OpensAuction)

section Properties

variable {phase : PhaseType} {venue next : ExchangeVenue}

theorem InCycle.state (inCycle : InCycle phase venue) :
    CycleState venue where
  pending := by
    rw [inCycle.phaseType]
    exact inCycle.pending
  empty := by
    rw [inCycle.phaseType]
    intro before instrumentId book found
    apply (inCycle.sound.shape.market.books instrumentId book found).isEmpty
    intro order member
    exact inCycle.empty before order ⟨instrumentId, book, found, member⟩
  uncrossed instrumentId book found :=
    (inCycle.sound.shape.market.books instrumentId book found).uncrossed

/-- A phase which takes no orders answers a submission at once. -/
theorem submitOrder_refused {order : Order}
    (closed : venue.currentPhaseState.isOrderSubmissionAllowed = false) :
    (VenueCall.submitOrder order).execute venue = venue := by
  simp [VenueCall.execute, ExchangeVenue.submitOrder, closed]

theorem cancelOrder_refused {orderId traderId : String}
    (closed : venue.currentPhaseState.isOrderCancellationAllowed = false) :
    (VenueCall.cancelOrder orderId traderId).execute venue = venue := by
  simp [VenueCall.execute, ExchangeVenue.cancelOrder, closed]

theorem InCycle.change (inCycle : InCycle phase venue)
    {call : VenueCall} (step : CycleStep venue call next) :
    CycleChange venue call next where
  noTrade := by
    intro before
    cases cycleStep_effect inCycle step with
    | quiet _ _ adds => rw [adds.heap]
    | collected _ => rfl
    | matched _ =>
        have phaseType := inCycle.phaseType
        rw [ExchangeVenue.submitted, ExchangeVenue.register] at before
        rw [phaseType] at before
        exact absurd before PhaseType.not_beforeOpening_continuous
    | auction _ current _ _ _ =>
        rw [current] at before
        exact absurd before PhaseType.not_beforeOpening_openingAuction
    | moved _ _ _ _ adds _ => rw [adds.heap]
  refused := by
    intro shut calls
    rcases step with ⟨_, rfl⟩
    have flags :
        venue.currentPhaseState.isOrderSubmissionAllowed = false ∧
          venue.currentPhaseState.isOrderCancellationAllowed = false := by
      rw [inCycle.phaseType] at shut
      rw [inCycle.current]
      rcases shut with rfl | rfl
      · exact ⟨rfl, rfl⟩
      · exact ⟨rfl, rfl⟩
    rcases calls with ⟨order, rfl⟩ | ⟨orderId, traderId, rfl⟩
    · exact submitOrder_refused flags.1
    · exact cancelOrder_refused flags.2

/-- A run keeps all orders the venue has taken in. -/
theorem orders_of_run {later : ExchangeVenue} {calls : List VenueCall}
    (shape : VenueShape venue) (run : Run VenueStep venue calls later) :
    venue.market.heap.orders ⊆ later.market.heap.orders := by
  have reached := run.invariant
    (fun state => VenueShape state ∧
      venue.market.heap.orders ⊆ state.market.heap.orders)
    ⟨shape, List.Subset.refl _⟩
    (by
      rintro state call after ⟨stateShape, kept⟩ step
      have advances := venueStep_advances stateShape step
      exact ⟨advances.1, List.Subset.trans kept advances.2.orders⟩)
  exact reached.2

/-- An order which is taken in later is not collected yet. -/
theorem not_pending_of_takes {later : ExchangeVenue} {order : Order}
    {calls : List VenueCall} (inCycle : InCycle phase venue)
    (run : Run CycleStep venue calls later) (takes : Takes later order) :
    ¬ venue.Pending order := by
  intro pending
  have kept := orders_of_run inCycle.sound.shape
    (run.mono fun _ _ _ step => venueStep_of_cycleStep step)
  exact takes.fresh order
    (kept (inCycle.sound.shape.live_taken (Or.inr pending))) rfl

/-- The calls of a run which process an order of the pre-open phase. -/
theorem processedByAuction {start opening : ExchangeVenue}
    {before after : List VenueCall} {order : Order}
    {result : OrderResult} (inCycle : InCycle phase start)
    (run :
      Run CycleStep start (before ++ .submitOrder order :: after) venue)
    (reaches : Run CycleStep start before opening)
    (preOpen : opening.currentPhaseState.phaseType = .preOpen)
    (submits : ExchangeVenue.submitOrder order opening = .ok result next) :
    ProcessedByAuction start before after order := by
  intro earlier call later state split reachesState
  rcases inCycle.of_run reaches with ⟨openingPhase, inOpening⟩
  rcases inCycle.of_run reachesState with ⟨statePhase, inState⟩
  have submission : CycleStep opening (.submitOrder order) next ∧
      Run CycleStep next after venue := by
    rcases run.split_at with ⟨same, taken, reachesSame, step, rest⟩
    rcases reachesSame.eq_replay.trans reaches.eq_replay.symm with rfl
    have returned : next = taken := by
      rw [step.2, VenueCall.execute, submits, finalState_ok]
    exact returned ▸ ⟨step, rest⟩
  rcases awaitsAuction_of_submits inOpening preOpen submission.1 submits with
    ⟨takes, awaits⟩
  have follows : call.FollowsCycle state := by
    rw [split] at run
    rcases run.split_at with ⟨same, _, reachesSame, step, _⟩
    rcases reachesSame.eq_replay.trans reachesState.eq_replay.symm with rfl
    exact step.1.2
  have early : ∀ front, before = earlier ++ front →
      (call.Processes state order ↔
        call.OpensAuction ∧
          ∃ middle, earlier = before ++ .submitOrder order :: middle ∧
            ∀ other ∈ middle, ¬ other.OpensAuction) := by
    rintro front rfl
    rcases reaches.split with ⟨same, toSame, fromSame⟩
    rcases toSame.eq_replay.trans reachesState.eq_replay.symm with rfl
    constructor
    · intro processes
      exact absurd processes.2
        (not_pending_of_takes inState fromSame takes)
    · rintro ⟨_, middle, longer, _⟩
      have lengths := congrArg List.length longer
      simp at lengths
  rcases List.append_eq_append_iff.mp split with
    ⟨middle, equal, rest⟩ | ⟨front, equal, _⟩
  · cases middle with
    | nil => exact early [] (by simp [equal])
    | cons first middle =>
        rcases List.cons.inj rest with ⟨rfl, rfl⟩
        subst equal
        have unique : (∃ other, before ++ .submitOrder order :: middle =
              before ++ .submitOrder order :: other ∧
                ∀ call ∈ other, ¬ call.OpensAuction) ↔
            ∀ call ∈ middle, ¬ call.OpensAuction := by
          constructor
          · rintro ⟨other, equal, none⟩
            rcases List.cons.inj (List.append_cancel_left equal) with ⟨_, rfl⟩
            exact none
          · exact fun none => ⟨middle, rfl, none⟩
        rw [unique]
        rcases reachesState.split_at with
          ⟨same, _, reachesSame, step, fromSubmission⟩
        rcases reachesSame.eq_replay.trans reaches.eq_replay.symm with rfl
        rcases step.2.trans submission.1.2.symm with rfl
        rcases awaits.run fromSubmission with
          ⟨none, waits⟩ | ⟨⟨other, member, opens⟩, _, done⟩
        · rw [VenueCall.Processes, runsBatch_iff waits.inCycle follows]
          exact and_congr_right' (iff_of_true waits.pending none)
        · exact iff_of_false (fun processes => done.2 processes.2)
            fun facts => facts.2 other member opens
  · exact early front equal

end Properties

/-- What the schedule guarantees of a run. -/
structure DailyCycle (start : ExchangeVenue) (calls : List VenueCall)
    (venue : ExchangeVenue) : Prop where
  state : CycleState venue
  change : ∀ call next, CycleStep venue call next →
    CycleChange venue call next
  processed : ∀ before order after opening result next,
    calls = before ++ .submitOrder order :: after →
      Run CycleStep start before opening →
        opening.currentPhaseState.phaseType = .preOpen →
          ExchangeVenue.submitOrder order opening = .ok result next →
            ProcessedByAuction start before after order

/--
On every run along the schedule the batch engine holds orders in the
pre-open phase only, the books are empty until the auction, nothing is traded
before it, submissions and cancels bounce off while the venue takes none, and
every order of the pre-open phase is processed by the auction of its day.
-/
theorem dailyCycle {calls : List VenueCall} {venue : ExchangeVenue}
    (run : Run CycleStep
      (ExchangeVenue.new (PhaseState.default .closed)
        (PhaseState.default .closed)) calls venue) :
    DailyCycle
      (ExchangeVenue.new (PhaseState.default .closed)
        (PhaseState.default .closed)) calls venue := by
  rcases InCycle.new.of_run run with ⟨phase, inCycle⟩
  refine ⟨inCycle.state, fun call next step => inCycle.change step, ?_⟩
  rintro before order after opening result next rfl reaches preOpen submits
  exact processedByAuction InCycle.new run reaches preOpen submits

/-- A day with an auction and a continuous market, and the next morning. -/
def Sample.dayCalls : List VenueCall :=
  [ .listInstrument { symbol := "CALL" },
    .checkPhaseTransitions (PhaseState.default .preOpen) fun _ => 0,
    .submitOrder sellTen,
    .checkPhaseTransitions (PhaseState.default .preOpen) fun _ => 0,
    .checkPhaseTransitions (PhaseState.default .openingAuction)
      fun _ => 0,
    .checkPhaseTransitions (PhaseState.default .continuous) fun _ => 0,
    .submitOrder buyFour,
    .checkPhaseTransitions (PhaseState.default .closed) fun _ => 0,
    .checkPhaseTransitions (PhaseState.default .preOpen) fun _ => 0 ]

theorem dailyCycle_day :
    DailyCycle
      (ExchangeVenue.new (PhaseState.default .closed)
        (PhaseState.default .closed))
      Sample.dayCalls
      (replay VenueCall.execute
        (ExchangeVenue.new (PhaseState.default .closed)
          (PhaseState.default .closed))
        Sample.dayCalls) :=
  dailyCycle (run_replay (by decide +kernel))

end InternTradingGame
