import InternTradingGame.Library.Runs
import InternTradingGame.Messaging.Manager
import Mathlib.Logic.Function.Basic

/-!
# The lock of the WebSocket manager

Tasks call `connect`, `disconnect` and `send_to_team`.  Every call works
under the lock of the manager, and a task may be interrupted wherever it
awaits something: the lock, the close of an old socket, the acceptance of a
new one, or a send.  The lock is not reentrant.  A step of a task which
stands elsewhere does nothing.

A send which fails calls `disconnect` while its task holds the lock.
-/

namespace InternTradingGame

/-! ## Tasks -/

/-- A task of the event loop, by its identity. -/
abbrev TaskId := ℕ

/-- A call of a method of the manager. -/
inductive ManagerCall where
  | connect (webSocket : WebSocket) (team : TeamInfo)
  | disconnect (teamId : String)
  | sendToTeam (teamId : String) (messageType : MessageType)
      (data : Payload)

/-- Where a task stands. -/
inductive TaskStage where
  | idle
  | waiting (call : ManagerCall)
  | closing (webSocket : WebSocket) (team : TeamInfo) (old : WebSocket)
  | accepting (webSocket : WebSocket) (team : TeamInfo)
  | sending (message : SentMessage)
  | disconnecting (teamId : String)

namespace TaskStage

/-- The task is inside `async with self._lock`. -/
def holdsLock : TaskStage → Bool
  | idle => false
  | waiting _ => false
  | closing _ _ _ => true
  | accepting _ _ => true
  | sending _ => true
  | disconnecting _ => true

/-- The task awaits the lock. -/
def awaitsLock : TaskStage → Bool
  | waiting _ => true
  | disconnecting _ => true
  | _ => false

end TaskStage

/--
The manager, its lock and the tasks.  `closed` are the sockets which have
been closed, `sent` and `failedSend` are history variables: the messages
sent, and the send which has failed in the last step.
-/
structure ConnectionState where
  manager : WebSocketManager
  holder : Option TaskId
  stage : TaskId → TaskStage
  closed : List WebSocket
  sent : List SentMessage
  failedSend : Option (TaskId × String)

namespace ConnectionState

/-- The manager has just been created. -/
def start : ConnectionState where
  manager := WebSocketManager.new
  holder := none
  stage := fun _ => .idle
  closed := []
  sent := []
  failedSend := none

/-- The task goes on to another stage. -/
def move (task : TaskId) (stage : TaskStage) (state : ConnectionState) :
    ConnectionState :=
  { state with
    stage := Function.update state.stage task stage
    failedSend := none }

/-- The task takes the lock. -/
def lock (task : TaskId) (stage : TaskStage) (state : ConnectionState) :
    ConnectionState :=
  { state.move task stage with holder := some task }

/-- The task is done with its call and releases the lock. -/
def release (task : TaskId) (state : ConnectionState) :
    ConnectionState :=
  { state.move task .idle with holder := none }

/-- The state with another table of connections. -/
def withManager (manager : WebSocketManager) (state : ConnectionState) :
    ConnectionState :=
  { state with manager := manager }

/-- The first steps of a call under the lock, up to its first `await`. -/
def enterCall (task : TaskId) (state : ConnectionState) :
    ManagerCall → ConnectionState
  | .connect webSocket team =>
      match state.manager.activeConnections.get? team.teamId with
      | some old => state.lock task (.closing webSocket team old)
      | none => state.lock task (.accepting webSocket team)
  | .disconnect teamId =>
      (state.move task .idle).withManager (state.manager.remove teamId)
  | .sendToTeam teamId messageType data =>
      match state.manager.activeConnections.get? teamId,
          state.manager.sequenceNumbers.get? teamId with
      | some webSocket, some last =>
          (state.lock task
            (.sending
              { webSocket, teamId, messageType, data
                sequenceNumber := last + 1 })).withManager
            (state.manager.advance teamId (last + 1))
      | _, _ => state.move task .idle

end ConnectionState

/-- A step of a task. -/
inductive ConnectionCall where
  | startCall (task : TaskId) (call : ManagerCall)
  | acquire (task : TaskId)
  | closeEnds (task : TaskId)
  | acceptEnds (task : TaskId) (succeeded : Bool)
  | sendEnds (task : TaskId) (succeeded : Bool)

namespace ConnectionCall

/--
The effect of a step of the connection tasks.  A step whose task is not at
that point of its code changes nothing.
-/
def execute : ConnectionCall → ConnectionState → ConnectionState
  | .startCall task call, state =>
      match state.stage task with
      | .idle => state.move task (.waiting call)
      | _ => state
  | .acquire task, state =>
      match state.holder, state.stage task with
      | none, .waiting call => state.enterCall task call
      | none, .disconnecting teamId =>
          (state.move task .idle).withManager
            (state.manager.remove teamId)
      | _, _ => state
  | .closeEnds task, state =>
      match state.stage task with
      | .closing webSocket team old =>
          { state.move task (.accepting webSocket team) with
            closed := state.closed ++ [old] }
      | _ => state
  | .acceptEnds task succeeded, state =>
      match state.stage task with
      | .accepting webSocket team =>
          if succeeded then
            (state.release task).withManager
              (state.manager.enter webSocket team)
          else
            state.release task
      | _ => state
  | .sendEnds task succeeded, state =>
      match state.stage task with
      | .sending message =>
          if succeeded then
            { state.release task with sent := state.sent ++ [message] }
          else
            { state.move task (.disconnecting message.teamId) with
              failedSend := some (task, message.teamId) }
      | _ => state

/-- The task which takes the step. -/
def task : ConnectionCall → TaskId
  | .startCall task _ => task
  | .acquire task => task
  | .closeEnds task => task
  | .acceptEnds task _ => task
  | .sendEnds task _ => task

/-- No send fails in the step. -/
def SendSucceeds : ConnectionCall → ConnectionState → Prop
  | .sendEnds task false, state =>
      ∀ message, state.stage task ≠ .sending message
  | _, _ => True

end ConnectionCall

/-- A step, which is always allowed. -/
abbrev ConnectionStep :
    ConnectionState → ConnectionCall → ConnectionState → Prop :=
  GuardedStep (fun _ _ => True) ConnectionCall.execute

/-! ## Who holds the lock -/

/-- The lock is held by the one task which is inside its block. -/
def LockInv (state : ConnectionState) : Prop :=
  ∀ task, (state.stage task).holdsLock = true ↔ state.holder = some task

theorem lockInv_start : LockInv ConnectionState.start := by
  intro task
  constructor
  · exact fun impossible => absurd impossible Bool.false_ne_true
  · exact fun impossible => absurd impossible.symm (by simp
      [ConnectionState.start])

section Lock

variable {state : ConnectionState} {task : TaskId} {stage : TaskStage}

@[simp]
theorem stage_move_self :
    (state.move task stage).stage task = stage := by
  show Function.update state.stage task stage task = stage
  rw [Function.update_self]

theorem stage_move_ne {other : TaskId} (different : other ≠ task) :
    (state.move task stage).stage other = state.stage other := by
  show Function.update state.stage task stage other = state.stage other
  rw [Function.update_of_ne different]

/-- A task moves on without entering or leaving the block. -/
theorem LockInv.move (invariant : LockInv state)
    (same : stage.holdsLock = (state.stage task).holdsLock) :
    LockInv (state.move task stage) := by
  intro other
  by_cases equal : other = task
  · subst equal
    rw [stage_move_self, same]
    exact invariant other
  · rw [stage_move_ne equal]
    exact invariant other

/-- A task enters the block while the lock is free. -/
theorem LockInv.lock (invariant : LockInv state)
    (free : state.holder = none) (inside : stage.holdsLock = true) :
    LockInv (state.lock task stage) := by
  intro other
  by_cases equal : other = task
  · subst equal
    have moved : ((state.lock other stage).stage other).holdsLock =
        true := by
      show ((state.move other stage).stage other).holdsLock = true
      rw [stage_move_self, inside]
    exact ⟨fun _ => rfl, fun _ => moved⟩
  · have outside : ¬ (state.stage other).holdsLock = true := by
      rw [invariant other, free]
      exact nofun
    constructor
    · intro holds
      have moved : ((state.move task stage).stage other).holdsLock =
          true := holds
      rw [stage_move_ne equal] at moved
      exact absurd moved outside
    · intro holder
      exact absurd (Option.some.inj holder).symm equal

/-- The task which holds the lock leaves the block. -/
theorem LockInv.release (invariant : LockInv state)
    (inside : (state.stage task).holdsLock = true) :
    LockInv (state.release task) := by
  have holder := (invariant task).mp inside
  intro other
  constructor
  · intro holds
    have moved : ((state.move task .idle).stage other).holdsLock =
        true := holds
    by_cases equal : other = task
    · subst equal
      rw [stage_move_self] at moved
      exact absurd moved Bool.false_ne_true
    · rw [stage_move_ne equal, invariant other, holder] at moved
      exact absurd (Option.some.inj moved).symm equal
  · exact fun impossible => absurd impossible.symm (by simp
      [ConnectionState.release])

/-- The first steps under the lock keep the books on the lock. -/
theorem LockInv.enterCall (invariant : LockInv state)
    {call : ManagerCall} (free : state.holder = none)
    (waits : state.stage task = .waiting call) :
    LockInv (state.enterCall task call) := by
  have idle : TaskStage.idle.holdsLock =
      (state.stage task).holdsLock := by
    rw [waits]
    rfl
  cases call with
  | connect webSocket team =>
      rw [ConnectionState.enterCall]
      cases state.manager.activeConnections.get? team.teamId with
      | some old => exact invariant.lock free rfl
      | none => exact invariant.lock free rfl
  | disconnect teamId => exact invariant.move idle
  | sendToTeam teamId messageType data =>
      rw [ConnectionState.enterCall]
      split
      · exact invariant.lock free rfl
      · exact invariant.move idle

/-- Every step keeps the books on the lock. -/
theorem lockInv_execute (call : ConnectionCall)
    (invariant : LockInv state) : LockInv (call.execute state) := by
  cases call with
  | startCall task call =>
      rw [ConnectionCall.execute]
      split
      · rename_i idle
        apply invariant.move
        rw [idle]
        rfl
      · exact invariant
  | acquire task =>
      rw [ConnectionCall.execute]
      split
      · rename_i call free waits
        exact invariant.enterCall free waits
      · rename_i teamId free disconnects
        have holder : state.holder = some task := by
          rw [← invariant task, disconnects]
          rfl
        cases free.symm.trans holder
      · exact invariant
  | closeEnds task =>
      rw [ConnectionCall.execute]
      split
      · rename_i webSocket team old closing
        apply invariant.move
        rw [closing]
        rfl
      · exact invariant
  | acceptEnds task succeeded =>
      rw [ConnectionCall.execute]
      split
      · rename_i webSocket team accepting
        have inside : (state.stage task).holdsLock = true := by
          rw [accepting]
          rfl
        cases succeeded with
        | true => exact invariant.release inside
        | false => exact invariant.release inside
      · exact invariant
  | sendEnds task succeeded =>
      rw [ConnectionCall.execute]
      split
      · rename_i message sending
        have inside : (state.stage task).holdsLock = true := by
          rw [sending]
          rfl
        cases succeeded with
        | true => exact invariant.release inside
        | false =>
            apply invariant.move
            rw [inside]
            rfl
      · exact invariant

end Lock

/-! ## Can the lock be self-blocked? -/

/-- A task waits for the lock while it holds it. -/
def SelfBlocked (state : ConnectionState) : Prop :=
  ∃ task, state.holder = some task ∧
    (state.stage task).awaitsLock = true

/--
No task waits for the lock it holds, and a send which has failed has removed
its team and released the lock.
-/
structure LockSafe (state : ConnectionState) : Prop where
  notBlocked : ¬ SelfBlocked state
  cleanedUp : ∀ task teamId,
    state.failedSend = some (task, teamId) →
      ¬ state.manager.activeConnections.Contains teamId ∧
        ¬ state.manager.sequenceNumbers.Contains teamId ∧
        ¬ state.manager.teamInfo.Contains teamId ∧
        state.holder ≠ some task

section Safe

variable {state : ConnectionState}

/-- Only a task inside `disconnect` can block itself. -/
theorem LockInv.selfBlocked_iff (invariant : LockInv state) :
    SelfBlocked state ↔
      ∃ task teamId, state.stage task = .disconnecting teamId := by
  constructor
  · rintro ⟨task, holder, awaits⟩
    have inside := (invariant task).mpr holder
    cases stage : state.stage task with
    | disconnecting teamId => exact ⟨task, teamId, stage⟩
    | waiting call =>
        rw [stage] at inside
        exact absurd inside Bool.false_ne_true
    | idle =>
        rw [stage] at awaits
        exact absurd awaits Bool.false_ne_true
    | closing webSocket team old =>
        rw [stage] at awaits
        exact absurd awaits Bool.false_ne_true
    | accepting webSocket team =>
        rw [stage] at awaits
        exact absurd awaits Bool.false_ne_true
    | sending message =>
        rw [stage] at awaits
        exact absurd awaits Bool.false_ne_true
  · rintro ⟨task, teamId, disconnects⟩
    refine ⟨task, ?_, ?_⟩
    · rw [← invariant task, disconnects]
      rfl
    · rw [disconnects]
      rfl

/-- One task has moved on, and not to the `disconnect` of a send. -/
structure Moves (state next : ConnectionState) (task : TaskId)
    (stage : TaskStage) : Prop where
  stages : next.stage = (state.move task stage).stage
  succeeded : next.failedSend = none
  elsewhere : ∀ teamId, stage ≠ .disconnecting teamId

theorem moves_enterCall (state : ConnectionState) (task : TaskId)
    (call : ManagerCall) :
    ∃ stage, Moves state (state.enterCall task call) task stage := by
  cases call with
  | connect webSocket team =>
      rw [ConnectionState.enterCall]
      cases state.manager.activeConnections.get? team.teamId with
      | some old => exact ⟨_, rfl, rfl, nofun⟩
      | none => exact ⟨_, rfl, rfl, nofun⟩
  | disconnect teamId => exact ⟨_, rfl, rfl, nofun⟩
  | sendToTeam teamId messageType data =>
      rw [ConnectionState.enterCall]
      split
      · exact ⟨_, rfl, rfl, nofun⟩
      · exact ⟨_, rfl, rfl, nofun⟩

/-- A step without a failing send does nothing or moves one task on. -/
theorem LockInv.execute_cases (invariant : LockInv state)
    {call : ConnectionCall} (succeeds : call.SendSucceeds state) :
    call.execute state = state ∨
      ∃ task stage, Moves state (call.execute state) task stage := by
  cases call with
  | startCall task call =>
      rw [ConnectionCall.execute]
      split
      · exact Or.inr ⟨task, _, rfl, rfl, nofun⟩
      · exact Or.inl rfl
  | acquire task =>
      rw [ConnectionCall.execute]
      split
      · exact Or.inr ⟨task, moves_enterCall state task _⟩
      · rename_i teamId free disconnects
        have holder : state.holder = some task := by
          rw [← invariant task, disconnects]
          rfl
        cases free.symm.trans holder
      · exact Or.inl rfl
  | closeEnds task =>
      rw [ConnectionCall.execute]
      split
      · exact Or.inr ⟨task, _, rfl, rfl, nofun⟩
      · exact Or.inl rfl
  | acceptEnds task succeeded =>
      rw [ConnectionCall.execute]
      split
      · cases succeeded with
        | true => exact Or.inr ⟨task, .idle, rfl, rfl, nofun⟩
        | false => exact Or.inr ⟨task, .idle, rfl, rfl, nofun⟩
      · exact Or.inl rfl
  | sendEnds task succeeded =>
      rw [ConnectionCall.execute]
      split
      · rename_i message sending
        cases succeeded with
        | true => exact Or.inr ⟨task, .idle, rfl, rfl, nofun⟩
        | false => exact absurd sending (succeeds message)
      · exact Or.inl rfl

/-- A step without a failing send keeps the lock safe. -/
theorem LockSafe.execute (safe : LockSafe state)
    (invariant : LockInv state) {call : ConnectionCall}
    (succeeds : call.SendSucceeds state) :
    LockSafe (call.execute state) := by
  rcases invariant.execute_cases succeeds with
    unchanged | ⟨task, stage, moves⟩
  · rw [unchanged]
    exact safe
  · constructor
    · intro blocked
      rcases (lockInv_execute call invariant).selfBlocked_iff.mp blocked with
        ⟨other, teamId, disconnects⟩
      rw [moves.stages] at disconnects
      by_cases equal : other = task
      · subst equal
        rw [stage_move_self] at disconnects
        exact moves.elsewhere teamId disconnects
      · rw [stage_move_ne equal] at disconnects
        exact safe.notBlocked
          (invariant.selfBlocked_iff.mpr ⟨other, teamId, disconnects⟩)
    · intro other teamId failed
      rw [moves.succeeded] at failed
      cases failed

/-- A send which fails blocks its own task. -/
theorem selfBlocked_of_failing (invariant : LockInv state)
    {call : ConnectionCall} (fails : ¬ call.SendSucceeds state) :
    SelfBlocked (call.execute state) := by
  cases call with
  | sendEnds task succeeded =>
      cases succeeded with
      | true => exact absurd trivial fails
      | false =>
          have sends : ∃ message, state.stage task = .sending message := by
            by_contra none
            exact fails fun message sending => none ⟨message, sending⟩
          rcases sends with ⟨message, sending⟩
          apply
            (lockInv_execute (.sendEnds task false)
              invariant).selfBlocked_iff.mpr
          refine ⟨task, message.teamId, ?_⟩
          rw [ConnectionCall.execute, sending]
          exact stage_move_self
  | startCall task call => exact absurd trivial fails
  | acquire task => exact absurd trivial fails
  | closeEnds task => exact absurd trivial fails
  | acceptEnds task succeeded => exact absurd trivial fails

/-- A step moves no other task. -/
theorem stage_execute_ne {call : ConnectionCall} {other : TaskId}
    (different : other ≠ call.task) :
    (call.execute state).stage other = state.stage other := by
  cases call with
  | startCall task call =>
      rw [ConnectionCall.execute]
      split
      · exact stage_move_ne different
      · rfl
  | acquire task =>
      rw [ConnectionCall.execute]
      split
      · rcases moves_enterCall state task _ with ⟨stage, moves⟩
        rw [moves.stages]
        exact stage_move_ne different
      · exact stage_move_ne different
      · rfl
  | closeEnds task =>
      rw [ConnectionCall.execute]
      split
      · exact stage_move_ne different
      · rfl
  | acceptEnds task succeeded =>
      rw [ConnectionCall.execute]
      split
      · cases succeeded with
        | true => exact stage_move_ne different
        | false => exact stage_move_ne different
      · rfl
  | sendEnds task succeeded =>
      rw [ConnectionCall.execute]
      split
      · cases succeeded with
        | true => exact stage_move_ne different
        | false => exact stage_move_ne different
      · rfl

/-- Once a task has blocked itself, it stays blocked. -/
theorem SelfBlocked.stays (blocked : SelfBlocked state)
    (invariant : LockInv state) (call : ConnectionCall) :
    SelfBlocked (call.execute state) := by
  rcases invariant.selfBlocked_iff.mp blocked with ⟨task, teamId, disconnects⟩
  apply (lockInv_execute call invariant).selfBlocked_iff.mpr
  refine ⟨task, teamId, ?_⟩
  by_cases own : task = call.task
  · have holder : state.holder = some task := by
      rw [← invariant task, disconnects]
      rfl
    have unchanged : call.execute state = state := by
      cases call with
      | startCall _ call =>
          obtain rfl : task = _ := own
          simp only [ConnectionCall.execute, disconnects]
      | acquire _ =>
          obtain rfl : task = _ := own
          simp only [ConnectionCall.execute, holder]
      | closeEnds _ =>
          obtain rfl : task = _ := own
          simp only [ConnectionCall.execute, disconnects]
      | acceptEnds _ succeeded =>
          obtain rfl : task = _ := own
          simp only [ConnectionCall.execute, disconnects]
      | sendEnds _ succeeded =>
          obtain rfl : task = _ := own
          simp only [ConnectionCall.execute, disconnects]
    rw [unchanged]
    exact disconnects
  · rw [stage_execute_ne own]
    exact disconnects

/-- After a failed send the lock is held in every state of the rest. -/
theorem SelfBlocked.forever {calls : List ConnectionCall}
    {later : ConnectionState} (blocked : SelfBlocked state)
    (invariant : LockInv state)
    (run : Run ConnectionStep state calls later) :
    SelfBlocked later := by
  have both : LockInv later ∧ SelfBlocked later := by
    apply run.invariant (fun reached =>
      LockInv reached ∧ SelfBlocked reached) ⟨invariant, blocked⟩
    rintro reached call _ ⟨held, stuck⟩ ⟨_, rfl⟩
    exact ⟨lockInv_execute call held, stuck.stays held call⟩
  exact both.2

end Safe

theorem lockSafe_start : LockSafe ConnectionState.start where
  notBlocked := by
    rintro ⟨task, holder, _⟩
    cases holder
  cleanedUp task teamId failed := by
    cases failed

/--
In all states of a run no task waits for the lock it holds, and failed sends
have been cleaned up after, if and only if no send fails in the run.
-/
theorem connectionLock_safe_iff {calls : List ConnectionCall}
    {state : ConnectionState}
    (run : Run ConnectionStep ConnectionState.start calls state) :
    Throughout ConnectionStep ConnectionState.start calls LockSafe ↔
      Permitted ConnectionCall.SendSucceeds ConnectionCall.execute
        ConnectionState.start calls := by
  apply run.throughout_iff LockInv LockSafe lockInv_start
  · exact fun state call invariant _ => lockInv_execute call invariant
  · exact lockSafe_start
  · exact fun state call invariant safe _ succeeds =>
      safe.execute invariant succeeds
  · exact fun state call invariant _ _ fails safe =>
      safe.notBlocked (selfBlocked_of_failing invariant fails)

namespace Sample

/-- A team connects, and a snapshot is sent to it. -/
def connectAndSend (succeeded : Bool) : List ConnectionCall :=
  [ .startCall 1
      (.connect 1 { teamId := "TAKER", role := "market_maker" }),
    .acquire 1,
    .acceptEnds 1 true,
    .startCall 2 (.sendToTeam "TAKER" .positionSnapshot ∅),
    .acquire 2,
    .sendEnds 2 succeeded ]

end Sample

/-- A send which succeeds gives the lock back. -/
theorem connectionLock_safe_send :
    Throughout ConnectionStep ConnectionState.start
      (Sample.connectAndSend true) LockSafe := by
  have run : Run ConnectionStep ConnectionState.start
      (Sample.connectAndSend true)
      (replay ConnectionCall.execute ConnectionState.start
        (Sample.connectAndSend true)) :=
    run_replay ⟨trivial, trivial, trivial, trivial, trivial, trivial,
      trivial⟩
  exact (connectionLock_safe_iff run).mpr
    ⟨trivial, trivial, trivial, trivial, trivial, trivial, trivial⟩

/-- A failed send waits for the lock its own task holds. -/
theorem failedSend_blocks :
    ¬ ∀ (calls : List ConnectionCall) (state : ConnectionState),
      Run ConnectionStep ConnectionState.start calls state →
        Throughout ConnectionStep ConnectionState.start calls
          LockSafe := by
  intro always
  have run : Run ConnectionStep ConnectionState.start
      (Sample.connectAndSend false)
      (replay ConnectionCall.execute ConnectionState.start
        (Sample.connectAndSend false)) :=
    run_replay ⟨trivial, trivial, trivial, trivial, trivial, trivial,
      trivial⟩
  have safe := always _ _ run (Sample.connectAndSend false) [] _
    (List.append_nil _).symm run
  apply safe.notBlocked
  refine ⟨2, ?_, ?_⟩
  · decide +kernel
  · decide +kernel

end InternTradingGame
