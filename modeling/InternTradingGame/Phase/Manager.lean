import InternTradingGame.Core.Models
import InternTradingGame.Library.OrderedDict

/-!
# The phase manager

The phase of the market is read from the configured schedule: every phase
has a window of the day and the weekdays on which it is open, and outside all
windows the market is closed.  The windows of a phase are texts, which are
parsed again at every look at the clock.

`searchSchedule` is the loop of the source, which stops at the first window
that is open.  When no two windows overlap the order of the schedule does
not matter, and `getCurrentPhaseType_iff` says when a phase is reported.
-/

namespace InternTradingGame

/-! ## Times of day -/

/--
A naive time of day, in microseconds since midnight.  The bound keeps every
value within a day.
-/
structure TimeOfDay where
  micros : ℕ
  beforeMidnight : micros < 86400000000
deriving DecidableEq, Repr

namespace TimeOfDay

instance : LE TimeOfDay where
  le earlier later := earlier.micros ≤ later.micros

instance : LT TimeOfDay where
  lt earlier later := earlier.micros < later.micros

instance (earlier later : TimeOfDay) : Decidable (earlier ≤ later) :=
  inferInstanceAs (Decidable (earlier.micros ≤ later.micros))

instance (earlier later : TimeOfDay) : Decidable (earlier < later) :=
  inferInstanceAs (Decidable (earlier.micros < later.micros))

theorem le_iff {earlier later : TimeOfDay} :
    earlier ≤ later ↔ earlier.micros ≤ later.micros :=
  Iff.rfl

theorem lt_iff {earlier later : TimeOfDay} :
    earlier < later ↔ earlier.micros < later.micros :=
  Iff.rfl

/--
`time(hour, minute, second, microsecond)`, with the range checks of the
constructor in its order.
-/
def new (hour minute second microsecond : ℕ) :
    Except PyError TimeOfDay :=
  if hours : hour < 24 then
    if minutes : minute < 60 then
      if seconds : second < 60 then
        if micros : microsecond < 1000000 then
          .ok
            { micros :=
                ((hour * 60 + minute) * 60 + second) * 1000000 +
                  microsecond
              beforeMidnight := by omega }
        else .error (.valueError "microsecond must be in 0..999999")
      else .error (.valueError "second must be in 0..59")
    else .error (.valueError "minute must be in 0..59")
  else .error (.valueError "hour must be in 0..23")

/-- The value of decimal digits, and nothing for any other text. -/
def digits (text : List Char) : Option ℕ :=
  if text.all Char.isDigit then
    some (text.foldl (fun value digit =>
      10 * value + (digit.toNat - '0'.toNat)) 0)
  else none

/--
The fraction of a second in microseconds, written with three or six digits.
-/
def fraction (text : List Char) : Option ℕ :=
  if text.length = 6 then digits text
  else if text.length = 3 then (digits text).map (1000 * ·)
  else none

/--
The components of `HH[:MM[:SS[.fff[fff]]]]`; what is missing at the end is
zero.
-/
def components (text : List Char) : Option (ℕ × ℕ × ℕ × ℕ) :=
  match text with
  | [h, h'] => do
      pure (← digits [h, h'], 0, 0, 0)
  | [h, h', ':', m, m'] => do
      pure (← digits [h, h'], ← digits [m, m'], 0, 0)
  | [h, h', ':', m, m', ':', s, s'] => do
      pure (← digits [h, h'], ← digits [m, m'], ← digits [s, s'], 0)
  | h :: h' :: ':' :: m :: m' :: ':' :: s :: s' :: '.' :: rest => do
      pure (← digits [h, h'], ← digits [m, m'], ← digits [s, s'],
        ← fraction rest)
  | _ => none

/--
`time.fromisoformat` of Python 3.9 and 3.10, for the formats without an
offset.  Later versions, which also read compact forms such as `0930`,
differ on texts this function refuses.
-/
def fromisoformat (text : String) : Except PyError TimeOfDay :=
  match components text.toList with
  | some (hour, minute, second, microsecond) =>
      new hour minute second microsecond
  | none =>
      .error (.valueError ("Invalid isoformat string: " ++ quoted text))

end TimeOfDay

/-- The days of the week.  The schedule compares their names only. -/
inductive Weekday where
  | monday
  | tuesday
  | wednesday
  | thursday
  | friday
  | saturday
  | sunday
deriving DecidableEq, Repr

/--
`strftime("%A")` in the default locale: the full English name, with a
capital letter as in the schedule.
-/
def Weekday.name : Weekday → String
  | .monday => "Monday"
  | .tuesday => "Tuesday"
  | .wednesday => "Wednesday"
  | .thursday => "Thursday"
  | .friday => "Friday"
  | .saturday => "Saturday"
  | .sunday => "Sunday"

/--
What the schedule looks at of a time in the zone of the market: its weekday
and its time of day, but not its date.
-/
structure MarketTime where
  weekday : Weekday
  time : TimeOfDay
deriving DecidableEq, Repr

/-! ## The configuration -/

/--
The window of a phase as it is configured: two texts, which are parsed again
at every look at the clock, and the names of the weekdays on which the
window is open.
-/
structure PhaseScheduleConfig where
  startTime : String
  endTime : String
  weekdays : List String
deriving DecidableEq, Repr

/--
The rules of a phase as they are configured, with the execution style as a
text.
-/
structure PhaseStateConfig where
  isOrderSubmissionAllowed : Bool
  isOrderCancellationAllowed : Bool
  isMatchingEnabled : Bool
  executionStyle : String
deriving DecidableEq, Repr

/--
The configured phases: their windows and their rules, under the values of
the phases.  The zone is that of the clock which is read.
-/
structure MarketPhasesConfig where
  timezone : String
  schedule : OrderedDict String PhaseScheduleConfig
  phaseStates : OrderedDict String PhaseStateConfig

/--
`PhaseType(value)`: the phase with the value, or the error of an enumeration
without it.
-/
def PhaseType.ofValue (value : String) : Except PyError PhaseType :=
  if value = "pre_open" then .ok .preOpen
  else if value = "opening_auction" then .ok .openingAuction
  else if value = "continuous" then .ok .continuous
  else if value = "closed" then .ok .closed
  else
    .error (.valueError (quoted value ++ " is not a valid PhaseType"))

/--
The execution style of a text.  The exchange only asks whether the style is
`batch`, so an unknown text counts as no style.
-/
def ExecutionStyle.ofValue (value : String) : ExecutionStyle :=
  if value = "batch" then .batch
  else if value = "continuous" then .continuous
  else .none

/--
`PhaseState.from_phase_type`: the configured rules of the phase, taken over
as they are.
-/
def PhaseState.fromPhaseType (phaseType : PhaseType)
    (config : PhaseStateConfig) : PhaseState where
  phaseType := phaseType
  isOrderSubmissionAllowed := config.isOrderSubmissionAllowed
  isOrderCancellationAllowed := config.isOrderCancellationAllowed
  isMatchingEnabled := config.isMatchingEnabled
  executionStyle := ExecutionStyle.ofValue config.executionStyle

/-! ## The phase of a time -/

/--
The loop over the schedule.  The first window that is open wins, a window
which is not open today is not even parsed, and a market without an open
window is closed.
-/
def searchSchedule (now : MarketTime) :
    List (String × PhaseScheduleConfig) → Except PyError PhaseType
  | [] => .ok .closed
  | (phaseName, schedule) :: rest =>
      if now.weekday.name ∈ schedule.weekdays then do
        let startTime ← TimeOfDay.fromisoformat schedule.startTime
        let endTime ← TimeOfDay.fromisoformat schedule.endTime
        if startTime ≤ now.time ∧ now.time < endTime then
          PhaseType.ofValue phaseName
        else searchSchedule now rest
      else searchSchedule now rest

namespace MarketPhasesConfig

/--
`get_current_phase_type`: the phase whose window is open at the time, read
off the schedule again at every call.
-/
def getCurrentPhaseType (config : MarketPhasesConfig)
    (now : MarketTime) : Except PyError PhaseType :=
  searchSchedule now config.schedule.entries

/--
`get_current_phase_state`: the configured rules of the current phase.  A
phase without rules is a `KeyError`.
-/
def getCurrentPhaseState (config : MarketPhasesConfig)
    (now : MarketTime) : Except PyError PhaseState := do
  let phaseType ← config.getCurrentPhaseType now
  match config.phaseStates.get? phaseType.value with
  | none => .error (.keyError phaseType.value)
  | some phaseConfig => .ok (PhaseState.fromPhaseType phaseType phaseConfig)

end MarketPhasesConfig

/-! ## What the schedule says -/

@[simp]
theorem PhaseType.ofValue_value (phase : PhaseType) :
    PhaseType.ofValue phase.value = .ok phase := by
  cases phase <;> rfl

/--
The window is open: the weekday is one of its days and the time is not
before its start and before its end.
-/
def PhaseScheduleConfig.Covers (schedule : PhaseScheduleConfig)
    (now : MarketTime) : Prop :=
  now.weekday.name ∈ schedule.weekdays ∧
    ∃ startTime endTime,
      TimeOfDay.fromisoformat schedule.startTime = .ok startTime ∧
        TimeOfDay.fromisoformat schedule.endTime = .ok endTime ∧
          startTime ≤ now.time ∧ now.time < endTime

/--
The entry is that of a phase, and its times can be read, so the search does
not fail on it.
-/
structure ReadableEntry (entry : String × PhaseScheduleConfig) : Prop where
  named : ∃ phase : PhaseType, entry.1 = phase.value
  startTime : ∃ time, TimeOfDay.fromisoformat entry.2.startTime = .ok time
  endTime : ∃ time, TimeOfDay.fromisoformat entry.2.endTime = .ok time

/--
The phase of an open window, or closed if there is none: what the search may
answer, whichever window it comes to first.
-/
def Finds (now : MarketTime) (entries : List (String × PhaseScheduleConfig))
    (phase : PhaseType) : Prop :=
  (∃ schedule, (phase.value, schedule) ∈ entries ∧ schedule.Covers now) ∨
    phase = .closed ∧ ∀ entry ∈ entries, ¬ entry.2.Covers now

/-- An entry whose window is not open makes no difference. -/
theorem Finds.cons {now : MarketTime}
    {entries : List (String × PhaseScheduleConfig)} {phase : PhaseType}
    (finds : Finds now entries phase)
    {entry : String × PhaseScheduleConfig}
    (shut : ¬ entry.2.Covers now) :
    Finds now (entry :: entries) phase := by
  rcases finds with ⟨schedule, member, covers⟩ | ⟨closed, none⟩
  · exact Or.inl ⟨schedule, List.mem_cons_of_mem _ member, covers⟩
  · exact Or.inr ⟨closed, List.forall_mem_cons.mpr ⟨shut, none⟩⟩

/-- The search finds a phase in every schedule which can be read. -/
theorem searchSchedule_finds (now : MarketTime)
    {entries : List (String × PhaseScheduleConfig)}
    (readable : ∀ entry ∈ entries, ReadableEntry entry) :
    ∃ phase, searchSchedule now entries = .ok phase ∧
      Finds now entries phase := by
  induction entries with
  | nil =>
      exact ⟨.closed, rfl, Or.inr ⟨rfl, List.forall_mem_nil _⟩⟩
  | cons entry rest induction =>
      rcases List.forall_mem_cons.mp readable with ⟨first, later⟩
      rcases induction later with ⟨found, result, finds⟩
      rcases entry with ⟨name, schedule⟩
      rcases first with
        ⟨⟨phase, rfl⟩, ⟨startTime, starts⟩, endTime, ends⟩
      by_cases today : now.weekday.name ∈ schedule.weekdays
      · have looked :
            searchSchedule now ((phase.value, schedule) :: rest) =
              if startTime ≤ now.time ∧ now.time < endTime then
                .ok phase
              else searchSchedule now rest := by
          rw [searchSchedule, if_pos today, starts, ends,
            PhaseType.ofValue_value]
          rfl
        by_cases during : startTime ≤ now.time ∧ now.time < endTime
        · rw [if_pos during] at looked
          exact ⟨phase, looked, Or.inl ⟨schedule, List.mem_cons_self,
            today, startTime, endTime, starts, ends, during⟩⟩
        · rw [if_neg during] at looked
          refine ⟨found, looked.trans result, finds.cons ?_⟩
          rintro ⟨_, other, last, parsed, parsedEnd, inside⟩
          cases starts.symm.trans parsed
          cases ends.symm.trans parsedEnd
          exact during inside
      · have skipped :
            searchSchedule now ((phase.value, schedule) :: rest) =
              searchSchedule now rest := by
          rw [searchSchedule, if_neg today]
        exact ⟨found, skipped.trans result,
          finds.cons fun covers => today covers.1⟩

namespace MarketPhasesConfig

variable {config : MarketPhasesConfig} {now : MarketTime}
  {phase : PhaseType}

/-- The window of the phase is open, in the entry the schedule has for it. -/
def Covers (config : MarketPhasesConfig) (phase : PhaseType)
    (now : MarketTime) : Prop :=
  ∃ schedule, config.schedule.get? phase.value = some schedule ∧
    schedule.Covers now

/--
The schedule can be read, and no two of its windows overlap.  The order of
the schedule then does not matter.
-/
structure Consistent (config : MarketPhasesConfig) : Prop where
  readable : ∀ entry ∈ config.schedule.entries, ReadableEntry entry
  exclusive : ∀ now first second,
    config.Covers first now → config.Covers second now → first = second

/--
The market is in the phase, as the windows say: the window of the phase is
open, or it is closed and no window is open.
-/
def Schedules (config : MarketPhasesConfig) (now : MarketTime)
    (phase : PhaseType) : Prop :=
  config.Covers phase now ∨
    phase = .closed ∧ ∀ other, ¬ config.Covers other now

/-- What the search finds is what the schedule says. -/
theorem schedules_of_finds
    (finds : Finds now config.schedule.entries phase) :
    config.Schedules now phase := by
  rcases finds with ⟨schedule, member, covers⟩ | ⟨closed, none⟩
  · exact Or.inl
      ⟨schedule, (config.schedule.get?_eq_some_iff _ _).mpr member, covers⟩
  · refine Or.inr ⟨closed, ?_⟩
    rintro other ⟨schedule, found, covers⟩
    exact none _ ((config.schedule.get?_eq_some_iff _ _).mp found) covers

/-- The market is in one phase at a time. -/
theorem Consistent.schedules_unique (consistent : config.Consistent)
    {other : PhaseType} (left : config.Schedules now phase)
    (right : config.Schedules now other) : phase = other := by
  rcases left with covers | ⟨rfl, none⟩
  · rcases right with coversOther | ⟨_, none⟩
    · exact consistent.exclusive now _ _ covers coversOther
    · exact absurd covers (none phase)
  · rcases right with covers | ⟨rfl, _⟩
    · exact absurd covers (none other)
    · rfl

/-- The manager reports the phase of the schedule, whatever its order. -/
theorem getCurrentPhaseType_iff (consistent : config.Consistent) :
    config.getCurrentPhaseType now = .ok phase ↔
      config.Schedules now phase := by
  rcases searchSchedule_finds now consistent.readable with
    ⟨found, result, finds⟩
  have reports : config.getCurrentPhaseType now = .ok found := result
  rw [reports]
  constructor
  · intro same
    cases same
    exact schedules_of_finds finds
  · intro schedules
    rw [consistent.schedules_unique schedules (schedules_of_finds finds)]

/-- The state of the phase is the configured one, if there is one. -/
theorem getCurrentPhaseState_of_schedules (consistent : config.Consistent)
    (schedules : config.Schedules now phase) :
    config.getCurrentPhaseState now =
      match config.phaseStates.get? phase.value with
      | none => .error (.keyError phase.value)
      | some phaseConfig =>
          .ok (PhaseState.fromPhaseType phase phaseConfig) := by
  rw [getCurrentPhaseState,
    (getCurrentPhaseType_iff consistent).mpr schedules]
  rfl

end MarketPhasesConfig

end InternTradingGame
