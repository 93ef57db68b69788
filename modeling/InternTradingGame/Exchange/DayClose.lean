import InternTradingGame.Exchange.Cancelling

/-!
# The close of the day

Observing the change from the continuous phase to the closed phase cancels
every order which rests in a book.  The orders collected by the batch engine
are not touched.  They only leave it in an auction, and the auction only runs
when the change from the pre-open phase to the auction phase is observed.
So the close leaves nothing over if and only if no order is collected when it
is observed.
-/

namespace InternTradingGame

open Effects

/-- The venue observes the close of the continuous market. -/
structure ClosesDay (venue : ExchangeVenue) (observed : PhaseState) :
    Prop where
  before : venue.lastPhase = some .continuous
  closed : observed.phaseType = .closed

/-- No order of the day is live after the close or traded later. -/
def NothingCarriedOver (venue closed : ExchangeVenue) : Prop :=
  ∀ order ∈ venue.market.heap.orders,
    ¬ closed.Live order ∧
      ∀ calls later, Run VenueStep closed calls later →
        NoLaterTrade order.orderId closed later

section Close

variable {venue : ExchangeVenue} {observed : PhaseState}

/-- The close empties the books and nothing else. -/
theorem close_ends (shape : VenueShape venue)
    (closes : ClosesDay venue observed) (draw : String → ℚ) :
    Ends (ExchangeVenue.checkPhaseTransitions observed draw) venue
      (fun _ next =>
        Closing (venue.observing observed) next ∧
          ∀ order, ¬ next.market.Rests order)
      (fun _ _ => False) := by
  have applied := checkPhaseTransitions_apply venue observed draw
  rw [closes.before] at applied
  simp only [closes.closed, reduceCtorEq, if_false] at applied
  exact Ends.of_eq applied
    (cancelAllOrders_ends (observing_shape shape observed))

/-- What is live after the close has been collected before. -/
theorem live_after_close (shape : VenueShape venue)
    (closes : ClosesDay venue observed) (draw : String → ℚ)
    (order : Order) :
    ExchangeVenue.Live
        ((VenueCall.checkPhaseTransitions observed draw).execute venue)
        order ↔
      venue.Pending order := by
  have ends := close_ends shape closes draw
  rw [VenueCall.execute]
  cases evaluated :
      ExchangeVenue.checkPhaseTransitions observed draw venue with
  | error exception next => exact (ends.elim_error evaluated).elim
  | ok value next =>
      rcases ends.elim_ok evaluated with ⟨closing, empty⟩
      have pending : next.Pending order ↔ venue.Pending order := by
        rw [ExchangeVenue.Pending, closing.pendingOrders]
        exact Iff.rfl
      constructor
      · rintro (rests | isPending)
        · exact absurd rests (empty order)
        · exact pending.mp isPending
      · exact fun isPending => Or.inr (pending.mpr isPending)

/-- With nothing collected, every order of the day is gone. -/
theorem nothingCarriedOver_of_none (shape : VenueShape venue)
    (closes : ClosesDay venue observed) (draw : String → ℚ)
    (none : ∀ order, ¬ venue.Pending order) :
    NothingCarriedOver venue
      ((VenueCall.checkPhaseTransitions observed draw).execute venue) := by
  intro order taken
  have dead : ∀ other, ¬ ExchangeVenue.Live
      ((VenueCall.checkPhaseTransitions observed draw).execute venue)
      other :=
    fun other isLive => none other
      ((live_after_close shape closes draw other).mp isLive)
  have step : VenueStep venue (.checkPhaseTransitions observed draw)
      ((VenueCall.checkPhaseTransitions observed draw).execute venue) :=
    ⟨trivial, rfl⟩
  have advances := venueStep_advances shape step
  have gone : Gone order.orderId
      ((VenueCall.checkPhaseTransitions observed draw).execute venue) :=
    { taken := ⟨order, advances.2.orders taken, rfl⟩
      dead := fun other isLive => absurd isLive (dead other) }
  exact ⟨dead order, fun calls later laterRun =>
    (gone.run advances.1 laterRun).2⟩

end Close

/--
The close leaves nothing over if and only if the batch engine has nothing
collected when it is observed.  In the run an id stands for one order, so
that a trade says which order it traded.
-/
theorem nothingCarriedOver_iff {cached baseline : PhaseState}
    {calls : List VenueCall} {venue : ExchangeVenue}
    {observed : PhaseState} {draw : String → ℚ}
    (run :
      Run VenueStep (ExchangeVenue.new cached baseline) calls venue)
    (closes : ClosesDay venue observed) :
    NothingCarriedOver venue
        ((VenueCall.checkPhaseTransitions observed draw).execute venue) ↔
      ∀ order, ¬ venue.Pending order := by
  have shape := VenueShape.of_run (VenueShape.new cached baseline) run
  constructor
  · intro nothing order pending
    exact (nothing order (shape.live_taken (Or.inr pending))).1
      ((live_after_close shape closes draw order).mpr pending)
  · exact nothingCarriedOver_of_none shape closes draw

/-- A day whose only order has rested in its book. -/
theorem nothingCarriedOver_continuous :
    NothingCarriedOver
        (replay VenueCall.execute Sample.closedVenue
          Sample.continuousCalls)
        ((VenueCall.checkPhaseTransitions (PhaseState.default .closed)
            fun _ => 0).execute
          (replay VenueCall.execute Sample.closedVenue
            Sample.continuousCalls)) ↔
      ∀ order, ¬ ExchangeVenue.Pending
        (replay VenueCall.execute Sample.closedVenue
          Sample.continuousCalls) order :=
  nothingCarriedOver_iff (run_replay (by decide +kernel))
    ⟨by decide +kernel, rfl⟩

/-- The next check after a submission misses the opening auction. -/
def Sample.missedAuction : List VenueCall :=
  preOpenCalls ++
    [.checkPhaseTransitions (PhaseState.default .continuous) fun _ => 0]

/-- A missed auction carries its orders over the close. -/
theorem missed_auction_carries_over :
    ¬ ∀ (cached baseline : PhaseState) (calls : List VenueCall)
        (venue : ExchangeVenue) (observed : PhaseState)
        (draw : String → ℚ),
      Run VenueStep (ExchangeVenue.new cached baseline) calls venue →
      ClosesDay venue observed →
        NothingCarriedOver venue
          ((VenueCall.checkPhaseTransitions observed draw).execute
            venue) := by
  intro nothing
  have none := nothing _ _ Sample.missedAuction
    (replay VenueCall.execute Sample.closedVenue Sample.missedAuction)
    (PhaseState.default .closed) (fun _ => 0)
    (run_replay (by decide +kernel)) ⟨by decide +kernel, rfl⟩
  apply (none Sample.sellTen (by decide +kernel)).1
  exact Or.inr
    ⟨"CALL", [Sample.sellTen], by decide +kernel,
      List.mem_singleton_self _⟩

/-! ## Days whose auction is observed -/

/--
The checks report default phases, and the phase observed after the pre-open
phase is the auction.
-/
def VenueCall.ObservesAuction : VenueCall → ExchangeVenue → Prop
  | .checkPhaseTransitions observed _, venue =>
      observed = PhaseState.default observed.phaseType ∧
        (venue.lastPhase = some .preOpen →
          observed.phaseType = .preOpen ∨
            observed.phaseType = .openingAuction)
  | _, _ => True

/-- An auction of waiting orders forgets all of them. -/
theorem executeOpeningAuction_empties {venue : ExchangeVenue}
    (sound : VenueSound venue) (draw : String → ℚ) :
    Ends (ExchangeVenue.executeOpeningAuction draw) venue
      (fun _ next =>
        next = { venue with market := next.market, pendingOrders := ∅ })
      (fun _ _ => False) := by
  rw [ExchangeVenue.executeOpeningAuction]
  cases evaluated : ExchangeVenue.runBatchEngine draw venue with
  | error exception next =>
      exact ((runBatchEngine_sound sound draw).elim_error evaluated).elim
  | ok results next =>
      exact Ends.bind_ok evaluated
        ((runBatchEngine_ends sound.shape draw).elim_ok evaluated).2

/-- The phase stays, and nothing more is collected. -/
structure CollectsNoMore (venue next : ExchangeVenue) : Prop where
  phase : next.currentPhaseState = venue.currentPhaseState
  last : next.lastPhase = venue.lastPhase
  pending : ∀ order, next.Pending order → venue.Pending order

namespace CollectsNoMore

variable {venue next : ExchangeVenue}

theorem refl (venue : ExchangeVenue) : CollectsNoMore venue venue :=
  ⟨rfl, rfl, fun _ pending => pending⟩

theorem of_batch
    (equal : next =
      { venue with market := next.market, pendingOrders := ∅ }) :
    CollectsNoMore venue next := by
  rw [equal]
  refine ⟨rfl, rfl, ?_⟩
  rintro order ⟨instrumentId, orders, found, _⟩
  simp at found

theorem of_closing (closing : Closing venue next) :
    CollectsNoMore venue next := by
  rcases closing.rest with ⟨known, equal⟩
  rw [equal]
  exact ⟨rfl, rfl, fun _ pending => pending⟩

end CollectsNoMore

/-- What a transition does to the phase and to the collected orders. -/
structure TransitionEffect (previous current : PhaseType)
    (venue next : ExchangeVenue) : Prop where
  frame : CollectsNoMore venue next
  auction : previous = .preOpen → current = .openingAuction →
    ∀ order, ¬ next.Pending order

theorem handleTransition_effect {venue : ExchangeVenue}
    (sound : VenueSound venue) (draw : String → ℚ)
    (previous current : PhaseType) :
    Ends (ExchangeVenue.handleTransition draw previous current) venue
      (fun _ next => TransitionEffect previous current venue next)
      (fun _ _ => False) := by
  have auction : Ends (ExchangeVenue.executeOpeningAuction draw) venue
      (fun _ next =>
        TransitionEffect .preOpen .openingAuction venue next)
      (fun _ _ => False) := by
    refine (executeOpeningAuction_empties sound draw).mono ?_
      (fun _ _ impossible => impossible)
    intro _ next equal
    have none : ∀ order, ¬ next.Pending order := by
      rintro order ⟨instrumentId, orders, found, _⟩
      rw [equal] at found
      simp at found
    exact ⟨CollectsNoMore.of_batch equal, fun _ _ => none⟩
  have close : Ends ExchangeVenue.cancelAllOrders venue
      (fun _ next => TransitionEffect .continuous .closed venue next)
      (fun _ _ => False) := by
    refine (cancelAllOrders_ends sound.shape).mono ?_
      (fun _ _ impossible => impossible)
    rintro _ next ⟨closing, _⟩
    exact ⟨CollectsNoMore.of_closing closing,
      fun impossible => absurd impossible (by decide)⟩
  have nothing : ¬ (previous = .preOpen ∧ current = .openingAuction) →
      TransitionEffect previous current venue venue := fun other =>
    { frame := CollectsNoMore.refl venue
      auction := fun before after => absurd ⟨before, after⟩ other }
  cases previous <;> cases current <;>
    first
      | exact auction
      | exact close
      | exact nothing (by decide)

/-- One call of a day whose auction is observed. -/
def ObservedStep (venue : ExchangeVenue) (call : VenueCall)
    (next : ExchangeVenue) : Prop :=
  VenueStep venue call next ∧ call.WholeQuantity ∧
    call.ObservesAuction venue

/-- Orders are collected in the pre-open phase only. -/
structure CollectsBeforeOpening (venue : ExchangeVenue) : Prop where
  sound : VenueSound venue
  phase : ∃ phase, venue.currentPhaseState = PhaseState.default phase ∧
    venue.lastPhase = some phase
  preOpen : ∀ order, venue.Pending order →
    venue.lastPhase = some .preOpen

namespace CollectsBeforeOpening

variable {venue next : ExchangeVenue}

/-- The phase stays, and nothing more is collected. -/
theorem of_frame (collects : CollectsBeforeOpening venue)
    (sound : VenueSound next) (frame : CollectsNoMore venue next) :
    CollectsBeforeOpening next where
  sound := sound
  phase := by
    rw [frame.phase, frame.last]
    exact collects.phase
  preOpen order isPending := by
    rw [frame.last]
    exact collects.preOpen order (frame.pending order isPending)

/-- The default phases only let orders be collected before the opening. -/
theorem collected (collects : CollectsBeforeOpening venue)
    {order : Order} (sound : VenueSound (venue.collected order))
    (takes : Takes venue order)
    (batch : venue.shouldUseBatchEngine = true) :
    CollectsBeforeOpening (venue.collected order) where
  sound := sound
  phase := collects.phase
  preOpen := by
    intro _ _
    rcases collects.phase with ⟨phase, current, last⟩
    have allowed := takes.allowed
    rw [ExchangeVenue.shouldUseBatchEngine] at batch
    rw [current] at allowed batch
    change venue.lastPhase = some .preOpen
    rw [last]
    cases phase with
    | preOpen => rfl
    | openingAuction => cases allowed
    | continuous => cases batch
    | closed => cases allowed

/-- An observed phase leaves nothing collected, or it is the same phase. -/
theorem observing (collects : CollectsBeforeOpening venue)
    {observed : PhaseState} {draw : String → ℚ}
    (sound : VenueSound
      ((VenueCall.checkPhaseTransitions observed draw).execute venue))
    (observes :
      (VenueCall.checkPhaseTransitions observed draw).ObservesAuction
        venue) :
    CollectsBeforeOpening
      ((VenueCall.checkPhaseTransitions observed draw).execute venue) := by
  rcases observes with ⟨fromDefault, staysOrOpens⟩
  rcases collects.phase with ⟨phase, current, last⟩
  have applied := checkPhaseTransitions_apply venue observed draw
  rw [last] at applied
  rw [VenueCall.execute] at sound ⊢
  by_cases same : phase = observed.phaseType
  · simp only [if_pos same] at applied
    rw [applied] at sound ⊢
    refine ⟨sound, ⟨observed.phaseType, fromDefault, rfl⟩, ?_⟩
    intro order pending
    exact (congrArg some same.symm).trans
      (last.symm.trans (collects.preOpen order pending))
  · simp only [if_neg same] at applied
    have ends := handleTransition_effect
      (collects.sound.observing observed) draw phase observed.phaseType
    rw [applied] at sound ⊢
    cases evaluated : ExchangeVenue.handleTransition draw phase
        observed.phaseType (venue.observing observed) with
    | error exception next => exact (ends.elim_error evaluated).elim
    | ok value next =>
        rw [evaluated] at sound
        have effect := ends.elim_ok evaluated
        refine ⟨sound, ⟨observed.phaseType,
          effect.frame.phase.trans fromDefault, effect.frame.last⟩, ?_⟩
        intro order pending
        have collecting :=
          collects.preOpen order (effect.frame.pending order pending)
        obtain rfl : phase = .preOpen :=
          Option.some.inj (last.symm.trans collecting)
        rcases staysOrOpens collecting with stays | opens
        · exact absurd stays.symm same
        · exact absurd pending (effect.auction rfl opens order)

theorem step (collects : CollectsBeforeOpening venue) {call : VenueCall}
    (observed : ObservedStep venue call next) :
    CollectsBeforeOpening next := by
  rcases observed with ⟨venueStep, whole, observes⟩
  have sound := venueStep_sound collects.sound whole venueStep
  have shape := collects.sound.shape
  rcases venueStep with ⟨allowed, rfl⟩
  cases call with
  | submitOrder order =>
      rw [VenueCall.execute] at sound ⊢
      have ends := submitOrder_sound collects.sound allowed whole
      cases evaluated : ExchangeVenue.submitOrder order venue with
      | error exception next =>
          rw [finalState_error, ends.elim_error evaluated]
          exact collects
      | ok result next =>
          rw [evaluated, finalState_ok] at sound
          cases (ends.elim_ok evaluated).1 with
          | refused _ => exact collects
          | collected takes batch =>
              exact collects.collected sound takes batch
          | matched _ _ _ _ _ _ _ =>
              exact collects.of_frame sound ⟨rfl, rfl, fun _ same => same⟩
  | checkPhaseTransitions state draw =>
      exact collects.observing sound observes
  | listInstrument instrument =>
      apply collects.of_frame sound
      apply finalState_of_ends
      refine (listInstrument_ends shape instrument).mono ?_ ?_
      · rintro _ next ⟨_, rfl⟩
        exact ⟨rfl, rfl, fun _ same => same⟩
      · rintro _ next rfl
        exact CollectsNoMore.refl next
  | cancelOrder orderId traderId =>
      apply collects.of_frame sound
      rw [VenueCall.execute]
      rcases cancelOrder_cases_venue shape orderId traderId with
        ⟨order, next, _, evaluates, cancelled⟩ |
          ⟨_, evaluates | ⟨exception, evaluates⟩⟩
      · rw [evaluates, finalState_ok, cancelled.rest]
        exact ⟨rfl, rfl, fun _ same => same⟩
      · rw [evaluates]
        exact CollectsNoMore.refl venue
      · rw [evaluates]
        exact CollectsNoMore.refl venue
  | executeBatch draw =>
      apply collects.of_frame sound
      apply finalState_of_ends
      rw [ExchangeVenue.executeBatch, ends_get_bind]
      by_cases batch : venue.currentPhaseState.executionStyle = .batch
      · rw [if_pos batch]
        exact (runBatchEngine_ends shape draw).mono
          (fun _ _ after => CollectsNoMore.of_batch after.2)
          (fun _ _ after => after.2 ▸ ⟨rfl, rfl, fun _ same => same⟩)
      · rw [if_neg batch]
        exact CollectsNoMore.refl venue
  | executeOpeningAuction draw =>
      apply collects.of_frame sound
      apply finalState_of_ends
      exact (executeOpeningAuction_empties collects.sound draw).mono
        (fun _ _ after => CollectsNoMore.of_batch after)
        (fun _ _ impossible => impossible.elim)
  | cancelAllOrders =>
      apply collects.of_frame sound
      apply finalState_of_ends
      exact (cancelAllOrders_ends shape).mono
        (fun _ _ closed => CollectsNoMore.of_closing closed.1)
        (fun _ _ impossible => impossible.elim)

end CollectsBeforeOpening

/-- While no auction is missed, the close leaves nothing over. -/
theorem nothingCarriedOver_of_observed_auctions {phase : PhaseType}
    {calls : List VenueCall} {venue : ExchangeVenue}
    {observed : PhaseState} {draw : String → ℚ}
    (run : Run ObservedStep
      (ExchangeVenue.new (PhaseState.default phase)
        (PhaseState.default phase)) calls venue)
    (closes : ClosesDay venue observed) :
    NothingCarriedOver venue
      ((VenueCall.checkPhaseTransitions observed draw).execute venue) := by
  have start : CollectsBeforeOpening
      (ExchangeVenue.new (PhaseState.default phase)
        (PhaseState.default phase)) :=
    { sound := VenueSound.new _ _
      phase := ⟨phase, rfl, by cases phase <;> rfl⟩
      preOpen := by
        rintro order ⟨instrumentId, orders, found, _⟩
        simp [ExchangeVenue.new] at found }
  have collects := run.invariant CollectsBeforeOpening start
    fun _ _ _ collects step => collects.step step
  apply nothingCarriedOver_of_none collects.sound.shape closes
  intro order pending
  have preOpen := collects.preOpen order pending
  rw [closes.before] at preOpen
  cases preOpen

end InternTradingGame
