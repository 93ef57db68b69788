import InternTradingGame.Phase.Manager

/-!
# Trading hours

On a trading day the market is in pre-open from the opening to the auction,
in the opening auction until continuous trading starts, and in continuous
trading until the close.  `Configured` says that a configuration describes
such hours with the default phase states.

A look at the clock which comes soon enough after the last one finds the
phase of the last one or the next phase of the day.
-/

namespace InternTradingGame

/-! ## The wall clock of the market -/

/--
The weekdays, counted from Monday; the clock counts its days from a Monday
on.
-/
def Weekday.ofNumber (number : ℕ) : Weekday :=
  match number % 7 with
  | 0 => .monday
  | 1 => .tuesday
  | 2 => .wednesday
  | 3 => .thursday
  | 4 => .friday
  | 5 => .saturday
  | _ => .sunday

/--
The time on a clock which counts microseconds from a Monday on: the day of
the week and the time of that day.
-/
def MarketTime.ofClock (clock : ℕ) : MarketTime where
  weekday := Weekday.ofNumber (clock / 86400000000)
  time :=
    { micros := clock % 86400000000
      beforeMidnight := Nat.mod_lt _ (by decide) }

/-! ## The hours of a trading day -/

/--
When the phases of a trading day begin, and on which days it is a trading
day.  The four times are in the order of the phases.
-/
structure TradingHours where
  opens : TimeOfDay
  auction : TimeOfDay
  starts : TimeOfDay
  closes : TimeOfDay
  weekdays : List Weekday
  opens_auction : opens < auction
  auction_starts : auction < starts
  starts_closes : starts < closes

namespace TradingHours

/--
The phase the hours put a time into: closed on other days, before the
opening and from the close on.
-/
def phaseAt (hours : TradingHours) (now : MarketTime) : PhaseType :=
  if now.weekday ∉ hours.weekdays then .closed
  else if now.time < hours.opens then .closed
  else if now.time < hours.auction then .preOpen
  else if now.time < hours.starts then .openingAuction
  else if now.time < hours.closes then .continuous
  else .closed

/--
The configuration opens the phase between the two times, both as the texts
of the schedule are read, on the trading days.
-/
def Window (hours : TradingHours) (config : MarketPhasesConfig)
    (phase : PhaseType) (startTime endTime : TimeOfDay) : Prop :=
  ∃ schedule, config.schedule.get? phase.value = some schedule ∧
    TimeOfDay.fromisoformat schedule.startTime = .ok startTime ∧
      TimeOfDay.fromisoformat schedule.endTime = .ok endTime ∧
        ∀ weekday : Weekday,
          weekday.name ∈ schedule.weekdays ↔ weekday ∈ hours.weekdays

/--
The configuration describes the hours, with the default states of the phases
and no window for the closed market.
-/
structure Configured (hours : TradingHours)
    (config : MarketPhasesConfig) : Prop where
  names : ∀ name ∈ config.schedule.keys,
    ∃ phase : PhaseType, phase ≠ .closed ∧ name = phase.value
  preOpen : hours.Window config .preOpen hours.opens hours.auction
  openingAuction :
    hours.Window config .openingAuction hours.auction hours.starts
  continuous : hours.Window config .continuous hours.starts hours.closes
  states : ∀ phase : PhaseType, ∃ phaseConfig,
    config.phaseStates.get? phase.value = some phaseConfig ∧
      PhaseState.fromPhaseType phase phaseConfig = PhaseState.default phase

section Configured

variable {hours : TradingHours} {config : MarketPhasesConfig}

/-- A window is open between its times, on the trading days. -/
theorem Window.covers_iff {phase : PhaseType}
    {startTime endTime : TimeOfDay}
    (window : hours.Window config phase startTime endTime)
    (now : MarketTime) :
    config.Covers phase now ↔
      now.weekday ∈ hours.weekdays ∧
        startTime ≤ now.time ∧ now.time < endTime := by
  rcases window with ⟨schedule, found, starts, ends, days⟩
  constructor
  · rintro ⟨other, foundOther, today, first, last, parsed, parsedEnd,
      during⟩
    cases found.symm.trans foundOther
    cases starts.symm.trans parsed
    cases ends.symm.trans parsedEnd
    exact ⟨(days _).mp today, during⟩
  · rintro ⟨today, during⟩
    exact ⟨schedule, found, (days _).mpr today, startTime, endTime,
      starts, ends, during⟩

theorem Window.readable {phase : PhaseType} {startTime endTime : TimeOfDay}
    (window : hours.Window config phase startTime endTime)
    {schedule : PhaseScheduleConfig}
    (found : config.schedule.get? phase.value = some schedule) :
    ReadableEntry (phase.value, schedule) := by
  rcases window with ⟨other, foundOther, starts, ends, _⟩
  cases found.symm.trans foundOther
  exact ⟨⟨phase, rfl⟩, ⟨startTime, starts⟩, endTime, ends⟩

/-- The hours have a window for every phase but the last. -/
theorem Configured.window (configured : hours.Configured config)
    {phase : PhaseType} (trades : phase ≠ .closed) :
    ∃ startTime endTime, hours.Window config phase startTime endTime := by
  cases phase with
  | preOpen => exact ⟨_, _, configured.preOpen⟩
  | openingAuction => exact ⟨_, _, configured.openingAuction⟩
  | continuous => exact ⟨_, _, configured.continuous⟩
  | closed => exact absurd rfl trades

theorem Configured.not_covers_closed (configured : hours.Configured config)
    (now : MarketTime) : ¬ config.Covers .closed now := by
  rintro ⟨schedule, found, _⟩
  rcases configured.names _ (OrderedDict.contains_of_get? found) with
    ⟨phase, trades, same⟩
  cases phase <;> first | exact trades rfl | exact absurd same (by decide)

/-- The open window is that of the phase of the hours. -/
theorem Configured.covers_iff (configured : hours.Configured config)
    (now : MarketTime) {phase : PhaseType} :
    config.Covers phase now ↔
      phase ≠ .closed ∧ hours.phaseAt now = phase := by
  have opens := hours.opens_auction
  have auction := hours.auction_starts
  have starts := hours.starts_closes
  simp only [TimeOfDay.lt_iff] at opens auction starts
  rw [phaseAt]
  simp only [TimeOfDay.lt_iff]
  cases phase with
  | preOpen =>
      rw [configured.preOpen.covers_iff, TimeOfDay.le_iff, TimeOfDay.lt_iff]
      split_ifs <;> simp_all
  | openingAuction =>
      rw [configured.openingAuction.covers_iff, TimeOfDay.le_iff,
        TimeOfDay.lt_iff]
      split_ifs <;> simp_all
      omega
  | continuous =>
      rw [configured.continuous.covers_iff, TimeOfDay.le_iff,
        TimeOfDay.lt_iff]
      split_ifs <;> simp_all <;> omega
  | closed =>
      exact iff_of_false (configured.not_covers_closed now)
        fun facts => facts.1 rfl

theorem Configured.consistent (configured : hours.Configured config) :
    config.Consistent where
  readable := by
    rintro ⟨name, schedule⟩ member
    rcases configured.names name (List.mem_map_of_mem member) with
      ⟨phase, trades, rfl⟩
    rcases configured.window trades with ⟨startTime, endTime, window⟩
    exact window.readable
      ((config.schedule.get?_eq_some_iff _ _).mpr member)
  exclusive := by
    intro now left right first second
    rw [configured.covers_iff] at first second
    exact first.2.symm.trans second.2

theorem Configured.schedules (configured : hours.Configured config)
    (now : MarketTime) : config.Schedules now (hours.phaseAt now) := by
  by_cases closed : hours.phaseAt now = .closed
  · refine Or.inr ⟨closed, ?_⟩
    intro other covers
    rcases (configured.covers_iff now).mp covers with ⟨trades, same⟩
    exact trades (same.symm.trans closed)
  · exact Or.inl ((configured.covers_iff now).mpr ⟨closed, rfl⟩)

/-- The manager reports the default state of the phase of the hours. -/
theorem Configured.getCurrentPhaseState
    (configured : hours.Configured config) (now : MarketTime) :
    config.getCurrentPhaseState now =
      .ok (PhaseState.default (hours.phaseAt now)) := by
  rw [MarketPhasesConfig.getCurrentPhaseState_of_schedules
    configured.consistent (configured.schedules now)]
  rcases configured.states (hours.phaseAt now) with
    ⟨phaseConfig, found, same⟩
  rw [found, ← same]

end Configured

end TradingHours

/-! ## The default configuration -/

namespace Sample

/--
The phases of `config/default.yaml`, with the windows and the rules as they
are written there.
-/
def defaultPhases : MarketPhasesConfig where
  timezone := "America/Chicago"
  schedule := .ofEntries
    [ ("pre_open", ⟨"08:00", "09:29:30", tradingDays⟩),
      ("opening_auction", ⟨"09:29:30", "09:30:00", tradingDays⟩),
      ("continuous", ⟨"09:30:00", "16:00:00", tradingDays⟩) ]
  phaseStates := .ofEntries
    [ ("closed", ⟨false, false, false, "none"⟩),
      ("pre_open", ⟨true, true, false, "none"⟩),
      ("opening_auction", ⟨false, false, true, "batch"⟩),
      ("continuous", ⟨true, true, true, "continuous"⟩) ]
where
  tradingDays : List String :=
    ["Monday", "Tuesday", "Wednesday", "Thursday", "Friday"]

/-- The hours of the default configuration, on the five weekdays. -/
def defaultHours : TradingHours where
  opens := ⟨28800000000, by decide⟩
  auction := ⟨34170000000, by decide⟩
  starts := ⟨34200000000, by decide⟩
  closes := ⟨57600000000, by decide⟩
  weekdays := [.monday, .tuesday, .wednesday, .thursday, .friday]
  opens_auction := by decide
  auction_starts := by decide
  starts_closes := by decide

theorem name_mem_tradingDays (weekday : Weekday) :
    weekday.name ∈ defaultPhases.tradingDays ↔
      weekday ∈ defaultHours.weekdays := by
  cases weekday <;> decide +kernel

theorem defaultPhases_configured :
    defaultHours.Configured defaultPhases where
  names := by
    have listed : defaultPhases.schedule.keys =
        [ PhaseType.preOpen.value, PhaseType.openingAuction.value,
          PhaseType.continuous.value ] := rfl
    rw [listed]
    simp only [List.forall_mem_cons]
    exact ⟨⟨_, by decide, rfl⟩, ⟨_, by decide, rfl⟩, ⟨_, by decide, rfl⟩,
      List.forall_mem_nil _⟩
  preOpen := ⟨_, rfl, by decide +kernel, by decide +kernel,
    name_mem_tradingDays⟩
  openingAuction := ⟨_, rfl, by decide +kernel, by decide +kernel,
    name_mem_tradingDays⟩
  continuous := ⟨_, rfl, by decide +kernel, by decide +kernel,
    name_mem_tradingDays⟩
  states := by
    intro phase
    cases phase <;> exact ⟨_, rfl, rfl⟩

end Sample

end InternTradingGame
