import InternTradingGame.Core.Models
import InternTradingGame.Library.OrderedDict
import Mathlib.Algebra.Order.Group.Abs
import Mathlib.Tactic.Ring

/-!
# Positions

The position service keeps a number for every team and instrument.  An
update adds to one of these numbers and leaves the others alone, so it adds
the same to the sum over all teams.
-/

namespace InternTradingGame

/-- The positions of one team, by instrument. -/
abbrev TeamPositions := OrderedDict String ℚ

/-- The positions of the teams, by team and instrument. -/
structure PositionManagementService where
  positions : OrderedDict String TeamPositions

namespace PositionManagementService

/-- No team has a position. -/
def new : PositionManagementService where
  positions := ∅

/-- The positions of a team, initialized if needed. -/
def teamPositions (service : PositionManagementService)
    (teamId : String) : TeamPositions :=
  (service.positions.get? teamId).getD ∅

/-- `get_positions`. -/
def getPositions (service : PositionManagementService)
    (teamId : String) : TeamPositions :=
  service.teamPositions teamId

/-- `get_position_for_instrument`. -/
def getPositionForInstrument (service : PositionManagementService)
    (teamId instrumentId : String) : ℚ :=
  match service.positions.get? teamId with
  | none => 0
  | some positions => (positions.get? instrumentId).getD 0

/-- `initialize_team`. -/
def initializeTeam (service : PositionManagementService)
    (teamId : String) : PositionManagementService :=
  if service.positions.Contains teamId then
    service
  else
    { positions := service.positions.set teamId ∅ }

/-- `update_position`. -/
def updatePosition (service : PositionManagementService)
    (teamId instrumentId : String) (delta : ℚ) :
    PositionManagementService :=
  let team := service.teamPositions teamId
  let position := (team.get? instrumentId).getD 0
  { positions :=
      service.positions.set teamId
        (team.set instrumentId (position + delta)) }

/-- `get_total_absolute_position`. -/
def getTotalAbsolutePosition (service : PositionManagementService)
    (teamId : String) : ℚ :=
  ((service.teamPositions teamId).values.map fun position =>
    |position|).sum

/-- The sum of the positions of all teams in an instrument. -/
def totalPosition (service : PositionManagementService)
    (instrumentId : String) : ℚ :=
  service.positions.sumValues fun team =>
    (team.get? instrumentId).getD 0

section Update

variable (service : PositionManagementService)
  (teamId instrumentId : String) (delta : ℚ)

theorem getPositionForInstrument_eq :
    service.getPositionForInstrument teamId instrumentId =
      ((service.teamPositions teamId).get? instrumentId).getD 0 := by
  rw [getPositionForInstrument, teamPositions]
  cases service.positions.get? teamId with
  | none => rfl
  | some positions => rfl

/-- An update changes one position. -/
theorem getPositionForInstrument_updatePosition
    (otherTeam otherInstrument : String) :
    (service.updatePosition teamId instrumentId
        delta).getPositionForInstrument otherTeam otherInstrument =
      service.getPositionForInstrument otherTeam otherInstrument +
        if otherTeam = teamId ∧ otherInstrument = instrumentId then
          delta
        else
          0 := by
  rw [getPositionForInstrument_eq, getPositionForInstrument_eq,
    teamPositions, updatePosition, OrderedDict.get?_set]
  by_cases sameTeam : otherTeam = teamId
  · rw [if_pos sameTeam, Option.getD_some, OrderedDict.get?_set,
      sameTeam]
    by_cases same : otherInstrument = instrumentId
    · rw [if_pos same, if_pos ⟨rfl, same⟩, Option.getD_some, same]
    · rw [if_neg same, if_neg fun both => same both.2, add_zero]
  · rw [if_neg sameTeam, if_neg fun both => sameTeam both.1, add_zero]
    rfl

theorem getTotalAbsolutePosition_eq :
    service.getTotalAbsolutePosition teamId =
      (service.teamPositions teamId).sumValues fun position =>
        |position| := by
  rw [getTotalAbsolutePosition, OrderedDict.values, List.map_map]
  rfl

/-- An update moves the team's total by the change of one position. -/
theorem getTotalAbsolutePosition_updatePosition :
    (service.updatePosition teamId instrumentId
        delta).getTotalAbsolutePosition teamId =
      service.getTotalAbsolutePosition teamId -
          |service.getPositionForInstrument teamId instrumentId| +
        |service.getPositionForInstrument teamId instrumentId +
          delta| := by
  have written :
      (service.updatePosition teamId instrumentId
          delta).teamPositions teamId =
        (service.teamPositions teamId).set instrumentId
          (((service.teamPositions teamId).get? instrumentId).getD 0 +
            delta) := by
    rw [teamPositions, updatePosition, OrderedDict.get?_set, if_pos rfl]
    rfl
  rw [getTotalAbsolutePosition_eq, getTotalAbsolutePosition_eq, written,
    OrderedDict.sumValues_set, getPositionForInstrument_eq]
  cases (service.teamPositions teamId).get? instrumentId with
  | none =>
      show _ - 0 + _ = _ - |0| + _
      rw [abs_zero]
  | some position => rfl

/-- An update adds the same to the sum over all teams. -/
theorem totalPosition_updatePosition (otherInstrument : String) :
    (service.updatePosition teamId instrumentId
        delta).totalPosition otherInstrument =
      service.totalPosition otherInstrument +
        if otherInstrument = instrumentId then delta else 0 := by
  rw [totalPosition, updatePosition, OrderedDict.sumValues_set,
    ← totalPosition]
  have before :
      ((service.positions.get? teamId).map fun team =>
          (team.get? otherInstrument).getD (0 : ℚ)).getD 0 =
        ((service.teamPositions teamId).get? otherInstrument).getD 0 := by
    rw [teamPositions]
    cases service.positions.get? teamId with
    | none => rfl
    | some positions => rfl
  rw [before, OrderedDict.get?_set]
  by_cases same : otherInstrument = instrumentId
  · rw [if_pos same, if_pos same, Option.getD_some, same]
    ring
  · rw [if_neg same, if_neg same]
    ring

end Update

@[simp]
theorem getPositionForInstrument_new (teamId instrumentId : String) :
    new.getPositionForInstrument teamId instrumentId = 0 :=
  rfl

@[simp]
theorem totalPosition_new (instrumentId : String) :
    new.totalPosition instrumentId = 0 :=
  rfl

end PositionManagementService

end InternTradingGame
