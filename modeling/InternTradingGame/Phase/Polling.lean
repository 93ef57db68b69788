import InternTradingGame.Exchange.DailyCycle
import InternTradingGame.Phase.TradingHours

/-!
# Polling the phase

The venue knows the phase of the market only from its checks: each check asks
the phase manager, which looks at the clock.  A check that is late finds a
phase the schedule has gone past, and what the venue does on the way is lost.

When the checks follow one another soon enough the venue sees every phase of
every trading day in its turn.  Its run is then a run along the schedule, so
the daily cycle holds, and it trades only within the trading hours.
-/

namespace InternTradingGame

open Effects

/-! ## A venue which looks at the clock -/

/--
What the participants and the matching thread call: the operations of the
venue, where a check does not say yet what it will observe.
-/
inductive VenueOperation where
  | listInstrument (instrument : Instrument)
  | submitOrder (order : Order)
  | cancelOrder (orderId traderId : String)
  | checkPhaseTransitions (draw : String → ℚ)

/--
A call, and the clock of the market when it is made.  Only a check looks at
the clock.
-/
structure TimedCall where
  clock : ℕ
  operation : VenueOperation

/--
A venue, and the clock of the market at the last check of its phase.  The
second part is bookkeeping of the run and not of the source.
-/
structure PolledVenue where
  venue : ExchangeVenue
  checked : ℕ

/--
The venue reads the phase of the clock when it is created, and its first
check finds this phase as the one before.
-/
def PolledVenue.start (config : MarketPhasesConfig) (clock : ℕ) :
    Except PyError PolledVenue := do
  let observed ←
    config.getCurrentPhaseState (MarketTime.ofClock clock)
  pure { venue := ExchangeVenue.new observed observed, checked := clock }

namespace TimedCall

/--
The call of the venue.  A check asks the phase manager for the state it
observes, and may already fail there.
-/
def venueCall (config : MarketPhasesConfig) (call : TimedCall) :
    Except PyError VenueCall :=
  match call.operation with
  | .listInstrument instrument => .ok (.listInstrument instrument)
  | .submitOrder order => .ok (.submitOrder order)
  | .cancelOrder orderId traderId => .ok (.cancelOrder orderId traderId)
  | .checkPhaseTransitions draw => do
      let observed ←
        config.getCurrentPhaseState (MarketTime.ofClock call.clock)
      pure (.checkPhaseTransitions observed draw)

/--
A check remembers its time; other calls leave the last check as it was.
-/
def checkedAt (call : TimedCall) (checked : ℕ) : ℕ :=
  match call.operation with
  | .checkPhaseTransitions _ => call.clock
  | _ => checked

/--
The effect of a timed call.  A failure of the manager is raised before the
venue does anything and leaves it as it was.
-/
def execute (config : MarketPhasesConfig) (call : TimedCall)
    (state : PolledVenue) : PolledVenue :=
  match call.venueCall config with
  | .ok made =>
      { venue := made.execute state.venue
        checked := call.checkedAt state.checked }
  | .error _ => state

/--
A submitted order has a whole quantity and an id which no other order has.
The endpoint makes both: its quantities are integers, and it draws the ids.
-/
def Allowed (call : TimedCall) (venue : ExchangeVenue) : Prop :=
  match call.operation with
  | .submitOrder order =>
      (VenueCall.submitOrder order).Allowed venue ∧ Whole order.quantity
  | _ => True

end TimedCall

/--
The call comes soon after the last check, or the market is closed at both
times, where the clock may also be changed.
-/
def TradingHours.Timely (hours : TradingHours) (gap : ℕ)
    (checked clock : ℕ) : Prop :=
  (checked ≤ clock ∧ clock ≤ checked + gap) ∨
    hours.phaseAt (MarketTime.ofClock checked) = .closed ∧
      hours.phaseAt (MarketTime.ofClock clock) = .closed

instance TradingHours.decidableTimely (hours : TradingHours)
    (gap checked clock : ℕ) : Decidable (hours.Timely gap checked clock) :=
  inferInstanceAs (Decidable (_ ∨ _))

instance TimedCall.decidableAllowed (call : TimedCall)
    (venue : ExchangeVenue) : Decidable (call.Allowed venue) := by
  rcases call with ⟨clock, operation⟩
  cases operation
  case submitOrder order => exact inferInstanceAs (Decidable (_ ∧ _))
  all_goals exact inferInstanceAs (Decidable True)

/--
One call, while the phase is checked at least once in every gap and every
submitted order is as the endpoint makes it.
-/
abbrev PolledStep (config : MarketPhasesConfig) (hours : TradingHours)
    (gap : ℕ) : PolledVenue → TimedCall → PolledVenue → Prop :=
  GuardedStep
    (fun call state =>
      hours.Timely gap state.checked call.clock ∧ call.Allowed state.venue)
    (TimedCall.execute config)

/-! ## A short gap misses no phase -/

/--
The gap fits into every phase of the day and into the night, so a check
falls into each of them.
-/
structure TradingHours.PhasesOutlast (hours : TradingHours) (gap : ℕ) :
    Prop where
  preOpen : hours.opens.micros + gap ≤ hours.auction.micros
  openingAuction : hours.auction.micros + gap ≤ hours.starts.micros
  continuous : hours.starts.micros + gap ≤ hours.closes.micros
  night : hours.closes.micros + gap ≤ hours.opens.micros + 86400000000

/--
The phase stays, or the next one of the cycle has come; no phase is skipped.
-/
def PhaseType.Follows (earlier later : PhaseType) : Prop :=
  later = earlier ∨ later = earlier.next

namespace TradingHours

variable {hours : TradingHours} {gap : ℕ} {earlier later : MarketTime}

/-- Within a day the phases are passed through in their order. -/
theorem follows_sameDay (short : hours.PhasesOutlast gap)
    (day : later.weekday = earlier.weekday)
    (ordered : earlier.time ≤ later.time)
    (soon : later.time.micros ≤ earlier.time.micros + gap) :
    (hours.phaseAt earlier).Follows (hours.phaseAt later) := by
  rcases short with ⟨preOpen, auction, continuous, night⟩
  rw [phaseAt, phaseAt, day]
  simp only [TimeOfDay.lt_iff, TimeOfDay.le_iff] at *
  unfold PhaseType.Follows
  split_ifs <;> first | exact Or.inl rfl | exact Or.inr rfl | omega

/-- Midnight falls into the night of both days. -/
theorem follows_nextDay (short : hours.PhasesOutlast gap)
    (soon :
      later.time.micros + 86400000000 ≤ earlier.time.micros + gap) :
    (hours.phaseAt earlier).Follows (hours.phaseAt later) := by
  have before := earlier.time.beforeMidnight
  have closes := hours.closes.beforeMidnight
  rcases short with ⟨preOpen, auction, continuous, night⟩
  rw [phaseAt, phaseAt]
  simp only [TimeOfDay.lt_iff] at *
  unfold PhaseType.Follows
  split_ifs <;> first | exact Or.inl rfl | exact Or.inr rfl | omega

/-- A timely check finds the phase of the last one, or the next. -/
theorem Timely.follows {checked clock : ℕ} (short : hours.PhasesOutlast gap)
    (timely : hours.Timely gap checked clock) :
    (hours.phaseAt (MarketTime.ofClock checked)).Follows
      (hours.phaseAt (MarketTime.ofClock clock)) := by
  rcases timely with ⟨ordered, soon⟩ | ⟨before, after⟩
  · have day : gap < 86400000000 := by
      have closes := hours.closes.beforeMidnight
      have continuous := short.continuous
      omega
    have days : clock / 86400000000 = checked / 86400000000 ∨
        clock / 86400000000 = checked / 86400000000 + 1 := by
      omega
    rcases days with same | following
    · apply follows_sameDay short
      · show Weekday.ofNumber _ = Weekday.ofNumber _
        rw [same]
      · show checked % 86400000000 ≤ clock % 86400000000
        omega
      · show clock % 86400000000 ≤ checked % 86400000000 + gap
        omega
    · apply follows_nextDay short
      show clock % 86400000000 + 86400000000 ≤
        checked % 86400000000 + gap
      omega
  · exact Or.inl (after.trans before.symm)

end TradingHours

/-! ## The phase the venue is in -/

section Phase

variable {phase : PhaseType} {venue next : ExchangeVenue}

/-- A check leaves the venue in the phase it has observed. -/
theorem checkPhaseTransitions_phase (sound : VenueSound venue)
    (observed : PhaseState) (draw : String → ℚ) :
    ((VenueCall.checkPhaseTransitions observed draw).execute
        venue).currentPhaseState = observed := by
  show (finalState (ExchangeVenue.checkPhaseTransitions observed draw
    venue)).currentPhaseState = observed
  rw [checkPhaseTransitions_apply]
  cases venue.lastPhase with
  | none => rfl
  | some last =>
      by_cases same : last = observed.phaseType
      · simp only [if_pos same]
        rfl
      · simp only [if_neg same]
        refine @finalState_of_ends _ _ _
          (fun reached => reached.currentPhaseState = observed) ?_
        refine (handleTransition_effect (sound.observing observed) draw
          last observed.phaseType).mono ?_
          (fun _ _ impossible => impossible.elim)
        intro _ next effect
        exact effect.frame.phase

theorem submitOrder_phase (sound : VenueSound venue) {order : Order}
    (allowed : (VenueCall.submitOrder order).Allowed venue)
    (whole : Whole order.quantity) :
    ((VenueCall.submitOrder order).execute venue).currentPhaseState =
      venue.currentPhaseState := by
  refine @finalState_of_ends _ (ExchangeVenue.submitOrder order) venue
    (fun reached => reached.currentPhaseState = venue.currentPhaseState) ?_
  refine (submitOrder_sound sound allowed whole).mono ?_ ?_
  · rintro result next ⟨returns, _⟩
    cases returns <;> rfl
  · rintro _ next rfl
    rfl

theorem cancelOrder_phase (shape : VenueShape venue)
    (orderId traderId : String) :
    ((VenueCall.cancelOrder orderId traderId).execute
        venue).currentPhaseState = venue.currentPhaseState := by
  show (finalState (ExchangeVenue.cancelOrder orderId traderId
    venue)).currentPhaseState = _
  rcases cancelOrder_cases_venue shape orderId traderId with
    ⟨order, next, _, evaluates, cancelled⟩ |
      ⟨_, evaluates | ⟨exception, evaluates⟩⟩
  · rw [evaluates, finalState_ok, cancelled.rest]
  · rw [evaluates, finalState_ok]
  · rw [evaluates, finalState_error]

theorem listInstrument_phase (shape : VenueShape venue)
    (instrument : Instrument) :
    ((VenueCall.listInstrument instrument).execute
        venue).currentPhaseState = venue.currentPhaseState := by
  refine @finalState_of_ends _ (ExchangeVenue.listInstrument instrument)
    venue
    (fun reached => reached.currentPhaseState = venue.currentPhaseState) ?_
  refine (listInstrument_ends shape instrument).mono ?_ ?_
  · rintro _ next ⟨_, rfl⟩
    rfl
  · rintro _ next rfl
    rfl

/-- A new venue may start in any phase. -/
theorem InCycle.new_phase (phase : PhaseType) :
    InCycle phase
      (ExchangeVenue.new (PhaseState.default phase)
        (PhaseState.default phase)) where
  sound := VenueSound.new _ _
  current := rfl
  last := by
    cases phase <;> rfl
  pending _ := rfl
  empty := by
    rintro _ order ⟨instrumentId, book, found, _⟩
    simp [ExchangeVenue.new] at found

/-- The phase of a venue is the one it has observed. -/
theorem InCycle.of_current {other : PhaseType}
    (inCycle : InCycle other venue)
    (current : venue.currentPhaseState = PhaseState.default phase) :
    InCycle phase venue := by
  have same : phase = other := by
    rw [← inCycle.phaseType, current]
    cases phase <;> rfl
  exact same ▸ inCycle

end Phase

/-! ## Runs -/

namespace Sample

/-- Checks half a minute apart see all phases of the default hours. -/
theorem defaultPhases_outlast :
    defaultHours.PhasesOutlast 30000000 := by
  constructor <;> decide

/-- A Monday at 09:29:10. -/
def preOpenVenue : PolledVenue where
  venue :=
    ExchangeVenue.new (PhaseState.default .preOpen)
      (PhaseState.default .preOpen)
  checked := 34150000000

theorem preOpenVenue_start :
    PolledVenue.start defaultPhases 34150000000 = .ok preOpenVenue := by
  rw [PolledVenue.start, defaultPhases_configured.getCurrentPhaseState]
  rfl

/-- Orders before the auction and after it. -/
def morningCalls : List TimedCall :=
  [ ⟨34151000000, .listInstrument { symbol := "CALL" }⟩,
    ⟨34152000000, .submitOrder sellTen⟩,
    ⟨34175000000, .checkPhaseTransitions fun _ => 0⟩,
    ⟨34200000000, .checkPhaseTransitions fun _ => 0⟩,
    ⟨34201000000, .submitOrder buyFour⟩ ]

end Sample

section Runs

variable {config : MarketPhasesConfig} {hours : TradingHours} {gap : ℕ}
  {state next : PolledVenue} {call : TimedCall}

/--
The calls of the venue which a run of timed calls makes, without those the
manager refuses.
-/
def venueCalls (config : MarketPhasesConfig) (calls : List TimedCall) :
    List VenueCall :=
  calls.filterMap fun call => (call.venueCall config).toOption

/-- The venue is in the phase which the hours put its last check into. -/
def PolledVenue.Knows (hours : TradingHours) (state : PolledVenue) : Prop :=
  InCycle (hours.phaseAt (MarketTime.ofClock state.checked)) state.venue

/-- A check at a time finds the phase of the hours. -/
def TradingHours.check (hours : TradingHours) (clock : ℕ)
    (draw : String → ℚ) : VenueCall :=
  .checkPhaseTransitions
    (PhaseState.default (hours.phaseAt (MarketTime.ofClock clock))) draw

theorem TradingHours.Configured.venueCall_check
    (configured : hours.Configured config) (clock : ℕ)
    (draw : String → ℚ) :
    TimedCall.venueCall config ⟨clock, .checkPhaseTransitions draw⟩ =
      .ok (hours.check clock draw) := by
  rw [TimedCall.venueCall, configured.getCurrentPhaseState]
  rfl

/-- What a timely call does is a step along the schedule. -/
theorem PolledVenue.Knows.step (knows : state.Knows hours)
    (configured : hours.Configured config)
    (short : hours.PhasesOutlast gap)
    (step : PolledStep config hours gap state call next) :
    ∃ made, call.venueCall config = .ok made ∧
      CycleStep state.venue made next.venue ∧ next.Knows hours := by
  rcases step with ⟨⟨timely, allowed⟩, rfl⟩
  rcases call with ⟨clock, operation⟩
  have stays : ∀ {made : VenueCall},
      CycleStep state.venue made (made.execute state.venue) →
        (made.execute state.venue).currentPhaseState =
          state.venue.currentPhaseState →
            InCycle (hours.phaseAt (MarketTime.ofClock state.checked))
              (made.execute state.venue) := by
    intro made step phase
    rcases knows.step step with ⟨after, inCycle⟩
    exact inCycle.of_current (phase.trans knows.current)
  cases operation with
  | listInstrument instrument =>
      have step : CycleStep state.venue (.listInstrument instrument) _ :=
        ⟨⟨trivial, trivial⟩, rfl⟩
      exact ⟨_, rfl, step,
        stays step (listInstrument_phase knows.sound.shape instrument)⟩
  | submitOrder order =>
      have step : CycleStep state.venue (.submitOrder order) _ :=
        ⟨allowed, rfl⟩
      exact ⟨_, rfl, step,
        stays step (submitOrder_phase knows.sound allowed.1 allowed.2)⟩
  | cancelOrder orderId traderId =>
      have step : CycleStep state.venue (.cancelOrder orderId traderId) _ :=
        ⟨⟨trivial, trivial⟩, rfl⟩
      exact ⟨_, rfl, step, stays step
        (cancelOrder_phase knows.sound.shape orderId traderId)⟩
  | checkPhaseTransitions draw =>
      have made := configured.venueCall_check clock draw
      have executes : TimedCall.execute config
          ⟨clock, .checkPhaseTransitions draw⟩ state =
            { venue := (hours.check clock draw).execute state.venue
              checked := clock } := by
        rw [TimedCall.execute, made]
        rfl
      have step : CycleStep state.venue (hours.check clock draw)
          ((hours.check clock draw).execute state.venue) := by
        refine ⟨⟨trivial, ?_⟩, rfl⟩
        show _ ∨ _
        rw [knows.phaseType]
        rcases timely.follows short with same | next
        · exact Or.inl (congrArg PhaseState.default same)
        · exact Or.inr (congrArg PhaseState.default next)
      rw [executes]
      refine ⟨_, made, step, ?_⟩
      rcases knows.step step with ⟨after, inCycle⟩
      exact inCycle.of_current (checkPhaseTransitions_phase knows.sound _ _)

/-- The venue starts in the phase of the clock. -/
theorem PolledVenue.Knows.start {clock : ℕ} {began : PolledVenue}
    (configured : hours.Configured config)
    (starts : PolledVenue.start config clock = .ok began) :
    began.venue =
        ExchangeVenue.new
          (PhaseState.default (hours.phaseAt (MarketTime.ofClock clock)))
          (PhaseState.default (hours.phaseAt (MarketTime.ofClock clock))) ∧
      began.Knows hours := by
  rw [PolledVenue.start, configured.getCurrentPhaseState] at starts
  cases starts
  exact ⟨rfl, InCycle.new_phase _⟩

/-- A timely run is a run along the schedule. -/
theorem PolledVenue.Knows.run {began : PolledVenue}
    {calls : List TimedCall} (knows : began.Knows hours)
    (configured : hours.Configured config)
    (short : hours.PhasesOutlast gap)
    (run : Run (PolledStep config hours gap) began calls state) :
    Run CycleStep began.venue (venueCalls config calls) state.venue ∧
      state.Knows hours := by
  apply run.induction_history (fun history reached =>
    Run CycleStep began.venue (venueCalls config history) reached.venue ∧
      reached.Knows hours)
  · exact ⟨.refl _, knows⟩
  · rintro history before call next _ ⟨prior, known⟩ step
    rcases known.step configured short step with
      ⟨made, makes, cycleStep, after⟩
    have called : venueCalls config (history ++ [call]) =
        venueCalls config history ++ [made] := by
      rw [venueCalls, List.filterMap_append, List.filterMap_cons, makes]
      rfl
    rw [called]
    exact ⟨prior.snoc cycleStep, after⟩

/-! ## Trading hours -/

/--
The market is in its auction or in continuous trading, or has been so at
most one gap before.
-/
def TradingHours.OpenWithin (hours : TradingHours) (gap clock : ℕ) :
    Prop :=
  ∃ instant, instant ≤ clock ∧ clock ≤ instant + gap ∧
    (hours.phaseAt (MarketTime.ofClock instant) = .openingAuction ∨
      hours.phaseAt (MarketTime.ofClock instant) = .continuous)

/-- Trades are made in continuous trading and by the auction. -/
theorem CycleEffect.trades {venue after : ExchangeVenue}
    {made : VenueCall} {phase : PhaseType}
    (effect : CycleEffect venue made phase after) :
    after.market.heap.trades = venue.market.heap.trades ∨
      phase = .continuous ∨ made.OpensAuction := by
  cases effect with
  | quiet _ _ adds => exact Or.inl (by rw [adds.heap])
  | collected _ => exact Or.inl rfl
  | matched _ => exact Or.inr (Or.inl rfl)
  | auction opens _ _ _ _ => exact Or.inr (Or.inr opens)
  | moved _ _ _ _ adds _ => exact Or.inl (by rw [adds.heap])

/-- The auction is found when it is time for it. -/
theorem TradingHours.Configured.phaseAt_of_opensAuction
    (configured : hours.Configured config) {made : VenueCall}
    (makes : call.venueCall config = .ok made)
    (opens : made.OpensAuction) :
    hours.phaseAt (MarketTime.ofClock call.clock) = .openingAuction := by
  rcases call with ⟨clock, operation⟩
  cases operation with
  | checkPhaseTransitions draw =>
      rw [configured.venueCall_check] at makes
      cases makes
      have found : (PhaseState.default
          (hours.phaseAt (MarketTime.ofClock clock))).phaseType =
            .openingAuction := opens
      rw [← found]
      cases hours.phaseAt (MarketTime.ofClock clock) <;> rfl
  | listInstrument instrument =>
      cases makes
      exact opens.elim
  | submitOrder order =>
      cases makes
      exact opens.elim
  | cancelOrder orderId traderId =>
      cases makes
      exact opens.elim

/-- A timely call trades only while the market is open. -/
theorem PolledVenue.Knows.trades (knows : state.Knows hours)
    (configured : hours.Configured config)
    (short : hours.PhasesOutlast gap)
    (step : PolledStep config hours gap state call next)
    (closed : ¬ hours.OpenWithin gap call.clock) :
    next.venue.market.heap.trades = state.venue.market.heap.trades := by
  rcases knows.step configured short step with ⟨made, makes, cycle, _⟩
  rcases (cycleStep_effect knows cycle).trades with same | open_ | opens
  · exact same
  · exfalso
    apply closed
    rcases step.1.1 with ⟨ordered, soon⟩ | ⟨before, _⟩
    · exact ⟨state.checked, ordered, soon, Or.inr open_⟩
    · cases before.symm.trans open_
  · exfalso
    apply closed
    exact ⟨call.clock, le_rfl, Nat.le_add_right _ _,
      Or.inl (configured.phaseAt_of_opensAuction makes opens)⟩

/-! ## Following the schedule -/

/-- What the schedule guarantees of a run from any of its phases. -/
theorem InCycle.daily {phase : PhaseType}
    {start venue : ExchangeVenue} {calls : List VenueCall}
    (inCycle : InCycle phase start)
    (run : Run CycleStep start calls venue) :
    DailyCycle start calls venue := by
  rcases inCycle.of_run run with ⟨reached, inReached⟩
  refine ⟨inReached.state, fun call next step => inReached.change step, ?_⟩
  rintro before order after opening result next rfl reaches preOpen submits
  exact processedByAuction inCycle run reaches preOpen submits

/--
A venue whose phase is checked in every gap keeps the hours: it is in the
phase in which its last check fell, and its run has all the properties of
the daily cycle.  Submitted orders have whole quantities and ids of their
own.
-/
theorem polled_dailyCycle {clock : ℕ} {began : PolledVenue}
    {calls : List TimedCall}
    (configured : hours.Configured config)
    (short : hours.PhasesOutlast gap)
    (starts : PolledVenue.start config clock = .ok began)
    (run : Run (PolledStep config hours gap) began calls state) :
    state.venue.currentPhaseState =
        PhaseState.default
          (hours.phaseAt (MarketTime.ofClock state.checked)) ∧
      DailyCycle began.venue (venueCalls config calls) state.venue := by
  have knows := (PolledVenue.Knows.start configured starts).2
  rcases knows.run configured short run with ⟨cycle, reached⟩
  exact ⟨reached.current, knows.daily cycle⟩

/-- A pre-open order is traded after the auction of the morning. -/
theorem polled_dailyCycle_morning :
    (replay (TimedCall.execute Sample.defaultPhases)
        Sample.preOpenVenue Sample.morningCalls).venue.currentPhaseState =
      PhaseState.default .continuous ∧
    DailyCycle Sample.preOpenVenue.venue
      (venueCalls Sample.defaultPhases Sample.morningCalls)
      (replay (TimedCall.execute Sample.defaultPhases)
        Sample.preOpenVenue Sample.morningCalls).venue :=
  polled_dailyCycle Sample.defaultPhases_configured
    Sample.defaultPhases_outlast Sample.preOpenVenue_start
    (run_replay (by decide +kernel))

/--
A timely venue makes no trade outside the trading hours.  Submitted orders
have whole quantities and ids of their own.
-/
theorem trades_inTradingHours {clock : ℕ} {began : PolledVenue}
    {calls : List TimedCall}
    (configured : hours.Configured config)
    (short : hours.PhasesOutlast gap)
    (starts : PolledVenue.start config clock = .ok began)
    (run : Run (PolledStep config hours gap) began calls state)
    (step : PolledStep config hours gap state call next)
    (traded :
      next.venue.market.heap.trades ≠ state.venue.market.heap.trades) :
    hours.OpenWithin gap call.clock := by
  have knows := (PolledVenue.Knows.start configured starts).2
  have reached := (knows.run configured short run).2
  by_contra closed
  exact traded (reached.trades configured short step closed)

/-- An order meets what the auction has left. -/
theorem trades_inTradingHours_morning :
    Sample.defaultHours.OpenWithin 30000000 34201000000 := by
  have traded :
      (TimedCall.execute Sample.defaultPhases
        ⟨34201000000, .submitOrder Sample.buyFour⟩
        (replay (TimedCall.execute Sample.defaultPhases)
          Sample.preOpenVenue
          (Sample.morningCalls.take 4))).venue.market.heap.trades ≠
      (replay (TimedCall.execute Sample.defaultPhases)
        Sample.preOpenVenue
        (Sample.morningCalls.take 4)).venue.market.heap.trades := by
    decide +kernel
  exact trades_inTradingHours Sample.defaultPhases_configured
    Sample.defaultPhases_outlast Sample.preOpenVenue_start
    (run_replay (by decide +kernel)) ⟨by decide +kernel, rfl⟩ traded

end Runs

end InternTradingGame
