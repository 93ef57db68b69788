import InternTradingGame.Messaging.Connections

/-!
# Does the newest connection win?

Every connection is served by a handler: it calls `connect`, waits in
`receive_text` until its socket is closed, and then calls `disconnect`.  A
new connection of a team closes the old socket, so the handler of the old
connection cleans up later.  It does so by team and not by socket, and may
remove the new connection.

A handler is the task with the identity of its socket.  Every socket is
accepted.
-/

namespace InternTradingGame

/--
The connections and the handlers.  `arrived`, `joined` and `left` are history
variables: the sockets whose handlers have called `connect`, have returned
from it, and have called `disconnect`.
-/
structure EndpointState where
  connections : ConnectionState
  arrived : List WebSocket
  joined : List (WebSocket × TeamInfo)
  left : List WebSocket

/-- A step of a handler or of its client. -/
inductive EndpointCall where
  | arrive (webSocket : WebSocket) (team : TeamInfo)
  | acquire (webSocket : WebSocket)
  | closeEnds (webSocket : WebSocket)
  | accept (webSocket : WebSocket)
  | drop (webSocket : WebSocket)
  | leave (webSocket : WebSocket)

namespace EndpointState

/-- No client has come yet. -/
def start : EndpointState where
  connections := ConnectionState.start
  arrived := []
  joined := []
  left := []

/-- A step of the handler within a call of the manager. -/
def step (call : ConnectionCall) (state : EndpointState) :
    EndpointState :=
  { state with connections := call.execute state.connections }

/-- The most recent connection of a team. -/
def newest? (state : EndpointState) (teamId : String) :
    Option (WebSocket × TeamInfo) :=
  (state.joined.filter fun entry => entry.2.teamId = teamId).getLast?

/-- The socket has been closed, by the client or by the manager. -/
def IsClosed (state : EndpointState) (webSocket : WebSocket) : Prop :=
  webSocket ∈ state.connections.closed

instance (state : EndpointState) (webSocket : WebSocket) :
    Decidable (state.IsClosed webSocket) :=
  inferInstanceAs (Decidable (_ ∈ _))

end EndpointState

namespace EndpointCall

/--
The effect of a step of the endpoint, with what its history keeps of
arrivals and accepted sockets.
-/
def execute : EndpointCall → EndpointState → EndpointState
  | .arrive webSocket team, state =>
      { state.step (.startCall webSocket (.connect webSocket team)) with
        arrived := state.arrived ++ [webSocket] }
  | .acquire webSocket, state => state.step (.acquire webSocket)
  | .closeEnds webSocket, state => state.step (.closeEnds webSocket)
  | .accept webSocket, state =>
      match state.connections.stage webSocket with
      | .accepting accepted team =>
          { state.step (.acceptEnds webSocket true) with
            joined := state.joined ++ [(accepted, team)] }
      | _ => state
  | .drop webSocket, state =>
      { state with
        connections :=
          { state.connections with
            closed := state.connections.closed ++ [webSocket] } }
  | .leave webSocket, state =>
      match state.joined.find? fun entry => entry.1 = webSocket with
      | some entry =>
          { state.step
              (.startCall webSocket (.disconnect entry.2.teamId)) with
            left := state.left ++ [webSocket] }
      | none => state

/--
A handler serves one connection from beginning to end: it leaves once, after
its socket has been closed.
-/
def Allowed : EndpointCall → EndpointState → Prop
  | .arrive webSocket _, state => webSocket ∉ state.arrived
  | .drop webSocket, state => webSocket ∈ state.joined.map Prod.fst
  | .leave webSocket, state =>
      webSocket ∈ state.joined.map Prod.fst ∧
        state.IsClosed webSocket ∧ webSocket ∉ state.left
  | _, _ => True

instance (call : EndpointCall) (state : EndpointState) :
    Decidable (call.Allowed state) := by
  rcases call
  case arrive webSocket team =>
      exact inferInstanceAs (Decidable (webSocket ∉ state.arrived))
  case drop webSocket =>
      exact inferInstanceAs
        (Decidable (webSocket ∈ state.joined.map Prod.fst))
  case leave webSocket =>
      exact inferInstanceAs
        (Decidable (webSocket ∈ state.joined.map Prod.fst ∧
          state.IsClosed webSocket ∧ webSocket ∉ state.left))
  all_goals exact inferInstanceAs (Decidable True)

/--
A handler which cleans up after its team finds the most recent connection of
the team closed.
-/
def CleansUpInTurn : EndpointCall → EndpointState → Prop
  | .acquire webSocket, state =>
      ∀ teamId,
        state.connections.holder = none →
          state.connections.stage webSocket =
              .waiting (.disconnect teamId) →
            ∀ entry ∈ state.newest? teamId, state.IsClosed entry.1
  | _, _ => True

end EndpointCall

/--
A step of the endpoint, in which each socket arrives and closes as sockets
do.
-/
abbrev EndpointStep : EndpointState → EndpointCall → EndpointState → Prop :=
  GuardedStep EndpointCall.Allowed EndpointCall.execute

/--
The most recent connection of a team is the registered one, unless it has
been closed.
-/
def NewestWins (state : EndpointState) : Prop :=
  ∀ teamId, ∀ entry ∈ state.newest? teamId,
    ¬ state.IsClosed entry.1 →
      state.connections.manager.activeConnections.get? teamId =
          some entry.1 ∧
        state.connections.manager.sequenceNumbers.Contains teamId ∧
        state.connections.manager.teamInfo.get? teamId = some entry.2

section Steps

variable {state next : EndpointState}

/-- Nothing has been registered or removed, and no socket reopened. -/
theorem NewestWins.congr (newest : NewestWins state)
    (joined : next.joined = state.joined)
    (closed :
      state.connections.closed ⊆ next.connections.closed)
    (manager :
      next.connections.manager = state.connections.manager) :
    NewestWins next := by
  intro teamId entry member opened
  rw [manager]
  apply newest teamId entry
  · rw [EndpointState.newest?, joined] at member
    exact member
  · exact fun already => opened (closed already)

theorem startCall_manager (task : TaskId) (call : ManagerCall)
    (connections : ConnectionState) :
    ((ConnectionCall.startCall task call).execute
        connections).manager = connections.manager ∧
      ((ConnectionCall.startCall task call).execute
        connections).closed = connections.closed := by
  rw [ConnectionCall.execute]
  split
  · exact ⟨rfl, rfl⟩
  · exact ⟨rfl, rfl⟩

theorem closeEnds_manager (task : TaskId)
    (connections : ConnectionState) :
    ((ConnectionCall.closeEnds task).execute connections).manager =
        connections.manager ∧
      connections.closed ⊆
        ((ConnectionCall.closeEnds task).execute connections).closed := by
  rw [ConnectionCall.execute]
  split
  · exact ⟨rfl, fun _ member => List.mem_append_left _ member⟩
  · exact ⟨rfl, fun _ member => member⟩

/-- What the first steps under the lock do to the manager. -/
theorem enterCall_manager (task : TaskId)
    (connections : ConnectionState) (call : ManagerCall) :
    (connections.enterCall task call).closed = connections.closed ∧
      ((connections.enterCall task call).manager = connections.manager ∨
        (∃ teamId, call = .disconnect teamId ∧
          (connections.enterCall task call).manager =
            connections.manager.remove teamId) ∨
        ∃ teamId last,
          (connections.enterCall task call).manager =
            connections.manager.advance teamId last) := by
  cases call with
  | connect webSocket team =>
      rw [ConnectionState.enterCall]
      cases connections.manager.activeConnections.get? team.teamId with
      | some old => exact ⟨rfl, Or.inl rfl⟩
      | none => exact ⟨rfl, Or.inl rfl⟩
  | disconnect teamId =>
      exact ⟨rfl, Or.inr (Or.inl ⟨teamId, rfl, rfl⟩)⟩
  | sendToTeam teamId messageType data =>
      rw [ConnectionState.enterCall]
      split
      · exact ⟨rfl, Or.inr (Or.inr ⟨teamId, _, rfl⟩)⟩
      · exact ⟨rfl, Or.inl rfl⟩

/-- Sending a message keeps the registrations. -/
theorem NewestWins.advanced (newest : NewestWins state)
    (joined : next.joined = state.joined)
    (closed : next.connections.closed = state.connections.closed)
    {sentTo : String} {last : ℕ}
    (manager : next.connections.manager =
      state.connections.manager.advance sentTo last) :
    NewestWins next := by
  intro teamId entry member opened
  rw [EndpointState.newest?, joined] at member
  have before := newest teamId entry member (by
    rw [EndpointState.IsClosed, closed] at opened
    exact opened)
  rw [manager]
  exact ⟨before.1,
    (OrderedDict.contains_set _ _ _ _).mpr (Or.inr before.2.1),
    before.2.2⟩

/-- Cleaning up after a team without an open connection. -/
theorem NewestWins.removed (newest : NewestWins state)
    (joined : next.joined = state.joined)
    (closed : next.connections.closed = state.connections.closed)
    {gone : String}
    (manager : next.connections.manager =
      state.connections.manager.remove gone)
    (inTurn : ∀ entry ∈ state.newest? gone, state.IsClosed entry.1) :
    NewestWins next := by
  intro teamId entry member opened
  rw [EndpointState.newest?, joined] at member
  rw [EndpointState.IsClosed, closed] at opened
  have before := newest teamId entry member opened
  have other : teamId ≠ gone := by
    rintro rfl
    exact opened (inTurn entry member)
  rw [manager]
  refine ⟨?_, ?_, ?_⟩
  · show (state.connections.manager.activeConnections.erase gone).get?
      teamId = some entry.1
    rw [OrderedDict.get?_erase, if_neg other]
    exact before.1
  · exact (OrderedDict.contains_erase _ _ _).mpr ⟨other, before.2.1⟩
  · show (state.connections.manager.teamInfo.erase gone).get?
      teamId = some entry.2
    rw [OrderedDict.get?_erase, if_neg other]
    exact before.2.2

/-- The newest connection of a team once another one has joined. -/
theorem newest?_join (entries : List (WebSocket × TeamInfo))
    (joining : WebSocket × TeamInfo) (teamId : String) :
    ((entries ++ [joining]).filter fun entry =>
        entry.2.teamId = teamId).getLast? =
      if joining.2.teamId = teamId then
        some joining
      else
        (entries.filter fun entry =>
          entry.2.teamId = teamId).getLast? := by
  rw [List.filter_append]
  by_cases same : joining.2.teamId = teamId
  · simp [same]
  · simp [same]

/-- A connection which joins is the newest of its team. -/
theorem NewestWins.joined (newest : NewestWins state)
    {webSocket : WebSocket} {team : TeamInfo}
    (joined : next.joined = state.joined ++ [(webSocket, team)])
    (closed : next.connections.closed = state.connections.closed)
    (manager : next.connections.manager =
      state.connections.manager.enter webSocket team) :
    NewestWins next := by
  intro teamId entry member opened
  rw [EndpointState.newest?, joined, newest?_join] at member
  rw [EndpointState.IsClosed, closed] at opened
  rw [manager]
  split_ifs at member with same
  · rcases Option.some.inj member with rfl
    subst same
    exact ⟨OrderedDict.get?_set_self _ _ _,
      (OrderedDict.contains_set _ _ _ _).mpr (Or.inl rfl),
      OrderedDict.get?_set_self _ _ _⟩
  · have before := newest teamId entry member opened
    have other : teamId ≠ team.teamId := Ne.symm same
    refine ⟨?_, ?_, ?_⟩
    · exact (OrderedDict.get?_set_ne _ _ other).trans before.1
    · exact (OrderedDict.contains_set _ _ _ _).mpr (Or.inr before.2.1)
    · exact (OrderedDict.get?_set_ne _ _ other).trans before.2.2

/-- A step in which handlers clean up in turn. -/
theorem NewestWins.execute (newest : NewestWins state)
    (lock : LockInv state.connections) {call : EndpointCall}
    (inTurn : call.CleansUpInTurn state) :
    NewestWins (call.execute state) := by
  cases call with
  | arrive webSocket team =>
      have facts := startCall_manager webSocket
        (.connect webSocket team) state.connections
      exact newest.congr rfl (List.Perm.of_eq facts.2.symm).subset
        facts.1
  | acquire webSocket =>
      rw [EndpointCall.execute, EndpointState.step,
        ConnectionCall.execute]
      split
      · rename_i call free waits
        have facts := enterCall_manager webSocket state.connections call
        rcases facts.2 with same | ⟨teamId, rfl, removed⟩ |
          ⟨teamId, last, advanced⟩
        · exact newest.congr rfl (List.Perm.of_eq facts.1.symm).subset
            same
        · exact newest.removed rfl facts.1 removed
            (inTurn teamId free waits)
        · exact newest.advanced rfl facts.1 advanced
      · rename_i teamId free disconnects
        have holder : state.connections.holder = some webSocket := by
          rw [← lock webSocket, disconnects]
          rfl
        cases free.symm.trans holder
      · exact newest
  | closeEnds webSocket =>
      have facts := closeEnds_manager webSocket state.connections
      exact newest.congr rfl facts.2 facts.1
  | accept webSocket =>
      rw [EndpointCall.execute]
      split
      · rename_i accepted team accepting
        have entered :
            ((ConnectionCall.acceptEnds webSocket true).execute
                state.connections).manager =
              state.connections.manager.enter accepted team := by
          simp only [ConnectionCall.execute, accepting]
          rfl
        have same :
            ((ConnectionCall.acceptEnds webSocket true).execute
                state.connections).closed =
              state.connections.closed := by
          simp only [ConnectionCall.execute, accepting]
          rfl
        exact newest.joined rfl same entered
      · exact newest
  | drop webSocket =>
      exact newest.congr rfl (List.subset_append_left _ _) rfl
  | leave webSocket =>
      rw [EndpointCall.execute]
      split
      · rename_i entry found
        have facts := startCall_manager webSocket
          (.disconnect entry.2.teamId) state.connections
        exact newest.congr rfl (List.Perm.of_eq facts.2.symm).subset
          facts.1
      · exact newest

/-- A step in which a handler cleans up after a newer connection. -/
theorem not_newestWins_execute {call : EndpointCall}
    (outOfTurn : ¬ call.CleansUpInTurn state) :
    ¬ NewestWins (call.execute state) := by
  cases call with
  | acquire webSocket =>
      intro newest
      apply outOfTurn
      intro teamId free waits entry member
      have after :
          (ConnectionCall.acquire webSocket).execute state.connections =
            state.connections.enterCall webSocket
              (.disconnect teamId) := by
        simp only [ConnectionCall.execute, free, waits]
      have removed :
          (EndpointCall.execute (.acquire webSocket) state).connections =
            state.connections.enterCall webSocket
              (.disconnect teamId) := after
      by_contra opened
      have kept := newest teamId entry member (by
        rw [EndpointState.IsClosed, removed]
        exact opened)
      rw [removed] at kept
      have gone :
          (state.connections.manager.activeConnections.erase
            teamId).get? teamId = none := by
        rw [OrderedDict.get?_erase, if_pos rfl]
      cases gone.symm.trans kept.1
  | arrive webSocket team => exact absurd trivial outOfTurn
  | closeEnds webSocket => exact absurd trivial outOfTurn
  | accept webSocket => exact absurd trivial outOfTurn
  | drop webSocket => exact absurd trivial outOfTurn
  | leave webSocket => exact absurd trivial outOfTurn

/-- The handlers use the lock as every other task does. -/
theorem lockInv_endpoint (call : EndpointCall)
    (lock : LockInv state.connections) :
    LockInv (call.execute state).connections := by
  cases call with
  | arrive webSocket team => exact lockInv_execute _ lock
  | acquire webSocket => exact lockInv_execute _ lock
  | closeEnds webSocket => exact lockInv_execute _ lock
  | accept webSocket =>
      rw [EndpointCall.execute]
      split
      · exact lockInv_execute _ lock
      · exact lock
  | drop webSocket => exact lock
  | leave webSocket =>
      rw [EndpointCall.execute]
      split
      · exact lockInv_execute _ lock
      · exact lock

end Steps

theorem newestWins_start : NewestWins EndpointState.start := by
  intro teamId entry member
  cases member

/--
In all states of a run the newest open connection of every team is the
registered one if and only if no handler cleans up after its team while a
newer connection of the team is open.
-/
theorem newestConnection_wins_iff {calls : List EndpointCall}
    {state : EndpointState}
    (run : Run EndpointStep EndpointState.start calls state) :
    Throughout EndpointStep EndpointState.start calls NewestWins ↔
      Permitted EndpointCall.CleansUpInTurn EndpointCall.execute
        EndpointState.start calls := by
  apply run.throughout_iff
    (fun state => LockInv state.connections) NewestWins lockInv_start
  · exact fun state call lock _ => lockInv_endpoint call lock
  · exact newestWins_start
  · exact fun state call lock newest _ inTurn =>
      newest.execute lock inTurn
  · exact fun state call _ _ _ outOfTurn =>
      not_newestWins_execute outOfTurn

namespace Sample

/-- The team of the examples. -/
def taker : TeamInfo where
  teamId := "TAKER"
  role := "market_maker"

/-- A client connects and goes again. -/
def oneConnection : List EndpointCall :=
  [ .arrive 1 taker, .acquire 1, .accept 1,
    .drop 1, .leave 1, .acquire 1 ]

/-- A client connects again before the first handler has cleaned up. -/
def reconnection : List EndpointCall :=
  [ .arrive 1 taker, .acquire 1, .accept 1,
    .arrive 2 taker, .acquire 2, .closeEnds 2, .accept 2,
    .leave 1, .acquire 1 ]

end Sample

/-- The only connection of a team is the registered one. -/
theorem newestConnection_wins_oneConnection :
    Throughout EndpointStep EndpointState.start Sample.oneConnection
      NewestWins := by
  have run : Run EndpointStep EndpointState.start Sample.oneConnection
      (replay EndpointCall.execute EndpointState.start
        Sample.oneConnection) :=
    run_replay (by decide +kernel)
  refine (newestConnection_wins_iff run).mpr
    ⟨trivial, ?_, trivial, trivial, trivial, ?_, trivial⟩
  · intro teamId _ disconnects
    have connects :
        (replay EndpointCall.execute EndpointState.start
          [.arrive 1 Sample.taker]).connections.stage 1 =
            .waiting (.connect 1 Sample.taker) :=
      rfl
    cases connects.symm.trans disconnects
  · intro teamId _ disconnects entry newest
    have own :
        (replay EndpointCall.execute EndpointState.start
          Sample.oneConnection.dropLast).connections.stage 1 =
            .waiting (.disconnect "TAKER") :=
      rfl
    cases own.symm.trans disconnects
    have first :
        (replay EndpointCall.execute EndpointState.start
          Sample.oneConnection.dropLast).newest? "TAKER" =
            some (1, Sample.taker) := by
      decide +kernel
    cases first.symm.trans newest
    show EndpointState.IsClosed
      (replay EndpointCall.execute EndpointState.start
        Sample.oneConnection.dropLast) 1
    decide +kernel

/-- The handler of the first connection removes the second. -/
theorem reconnection_removed :
    ¬ ∀ (calls : List EndpointCall) (state : EndpointState),
      Run EndpointStep EndpointState.start calls state →
        NewestWins state := by
  intro always
  have newest := always Sample.reconnection _
    (run_replay (by decide +kernel)) "TAKER" (2, Sample.taker)
    (by decide +kernel) (by decide +kernel)
  have gone :
      (replay EndpointCall.execute EndpointState.start
        Sample.reconnection).connections.manager.activeConnections.get?
          "TAKER" = none := by
    decide +kernel
  cases gone.symm.trans newest.1

end InternTradingGame
