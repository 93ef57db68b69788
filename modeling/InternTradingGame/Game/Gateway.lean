import InternTradingGame.Game.Registry
import InternTradingGame.Messaging.Streams

/-!
# Sockets with API keys

A client opens a socket with an API key.  The endpoint looks up the team of
the key and either closes the socket or hands it to the WebSocket manager.
All else the manager does is done by other tasks: the websocket thread sends
messages, and the handlers clean up after their teams.
-/

namespace InternTradingGame

open Sequences

/--
The registry and the connections, and for every socket which has been let in
the key it came with.
-/
structure Gateway where
  game : GameService
  connections : ConnectionState
  keys : OrderedDict WebSocket String

/-- The task has nothing to do. -/
def TaskStage.IsIdle : TaskStage → Prop
  | idle => True
  | _ => False

instance TaskStage.decidableIsIdle (stage : TaskStage) :
    Decidable stage.IsIdle := by
  cases stage
  case idle => exact inferInstanceAs (Decidable True)
  all_goals exact inferInstanceAs (Decidable False)

instance ConnectionCall.decidableOpensNone (call : ConnectionCall) :
    Decidable call.OpensNone := by
  rcases call
  case startCall task call =>
      cases call
      case connect => exact inferInstanceAs (Decidable False)
      all_goals exact inferInstanceAs (Decidable True)
  all_goals exact inferInstanceAs (Decidable True)

/-- A registration, a client which comes, or a step of a task. -/
inductive GatewayCall where
  | registerTeam (call : RegistryCall)
  | openSocket (task : TaskId) (webSocket : WebSocket) (apiKey : String)
  | connection (call : ConnectionCall)

namespace Gateway

/-- No team is registered and no socket is open. -/
def start : Gateway where
  game := GameService.new
  connections := ConnectionState.start
  keys := ∅

/-- The socket is closed before it has been accepted. -/
def turnAway (webSocket : WebSocket) (gateway : Gateway) : Gateway :=
  { gateway with
    connections :=
      { gateway.connections with
        closed := gateway.connections.closed ++ [webSocket] } }

/-- The handler calls `connect`. -/
def letIn (task : TaskId) (webSocket : WebSocket) (apiKey : String)
    (team : TeamInfo) (gateway : Gateway) : Gateway :=
  { gateway with
    connections :=
      ConnectionCall.execute (.startCall task (.connect webSocket team))
        gateway.connections
    keys := gateway.keys.set webSocket apiKey }

/-- `websocket_endpoint`, up to the call of `connect`. -/
def openSocket (task : TaskId) (webSocket : WebSocket) (apiKey : String)
    (gateway : Gateway) : Gateway :=
  match gateway.game.getTeamByApiKey apiKey with
  | none => gateway.turnAway webSocket
  | some team => gateway.letIn task webSocket apiKey team.info

/-- The team for which a socket has been let in. -/
def opened (gateway : Gateway) (webSocket : WebSocket) : Option String :=
  (gateway.keys.get? webSocket).bind fun apiKey =>
    (gateway.game.getTeamByApiKey apiKey).map RegisteredTeam.teamId

end Gateway

namespace GatewayCall

/--
The effect of a step: a registration, a socket which knocks with a key, or a
step of the connections.
-/
def execute : GatewayCall → Gateway → Gateway
  | .registerTeam call, gateway =>
      { gateway with game := call.execute gateway.game }
  | .openSocket task webSocket apiKey, gateway =>
      gateway.openSocket task webSocket apiKey
  | .connection call, gateway =>
      { gateway with connections := call.execute gateway.connections }

/-- Every client comes with a socket and a handler of its own. -/
def Allowed : GatewayCall → Gateway → Prop
  | .registerTeam call, gateway => call.Allowed gateway.game
  | .openSocket task webSocket _, gateway =>
      (gateway.connections.stage task).IsIdle ∧
        ¬ gateway.keys.Contains webSocket
  | .connection call, _ => call.OpensNone

instance (call : GatewayCall) (gateway : Gateway) :
    Decidable (call.Allowed gateway) := by
  rcases call
  case registerTeam call =>
      exact inferInstanceAs (Decidable (call.Allowed gateway.game))
  case openSocket task webSocket apiKey =>
      exact inferInstanceAs (Decidable (_ ∧ _))
  case connection call => exact inferInstanceAs (Decidable call.OpensNone)

end GatewayCall

/-- One step of the gateway. -/
abbrev GatewayStep : Gateway → GatewayCall → Gateway → Prop :=
  GuardedStep GatewayCall.Allowed GatewayCall.execute

/-! ## What every step keeps -/

/-- The registry tells the keys apart, and the sockets are those of keys. -/
structure GatewaySound (gateway : Gateway) : Prop where
  registry : RegistrySound gateway.game
  streams : StreamsSound gateway.opened gateway.connections

namespace GatewaySound

variable {gateway next : Gateway}

theorem start : GatewaySound Gateway.start where
  registry := RegistrySound.new
  streams := StreamsSound.start

/-- A socket has been let in for the registered team of its key. -/
theorem opened_iff (sound : GatewaySound gateway) {webSocket : WebSocket}
    {teamId : String} :
    gateway.opened webSocket = some teamId ↔
      ∃ team, gateway.game.Registered team ∧
        gateway.keys.get? webSocket = some team.apiKey ∧
          team.teamId = teamId := by
  rw [Gateway.opened, Option.bind_eq_some_iff]
  constructor
  · rintro ⟨apiKey, stored, named⟩
    rcases Option.map_eq_some_iff.mp named with ⟨team, found, rfl⟩
    rcases (sound.registry.getTeamByApiKey_iff apiKey).mp found with
      ⟨registered, rfl⟩
    exact ⟨team, registered, stored, rfl⟩
  · rintro ⟨team, registered, stored, rfl⟩
    refine ⟨team.apiKey, stored, ?_⟩
    rw [(sound.registry.getTeamByApiKey_iff team.apiKey).mpr
      ⟨registered, rfl⟩]
    rfl

theorem registerTeam (sound : GatewaySound gateway) {call : RegistryCall}
    (allowed : call.Allowed gateway.game) :
    GatewaySound
      { gateway with game := call.execute gateway.game } := by
  rcases sound.registry.step ⟨allowed, rfl⟩ with ⟨registry, kept⟩
  constructor
  · exact registry
  · apply sound.streams.mono
    intro webSocket teamId isOpen
    rcases sound.opened_iff.mp isOpen with ⟨team, registered, key, id⟩
    have found := (registry.getTeamByApiKey_iff team.apiKey).mpr
      ⟨kept team registered, rfl⟩
    show (gateway.keys.get? webSocket).bind _ = some teamId
    rw [key]
    show ((call.execute gateway.game).getTeamByApiKey team.apiKey).map _ = _
    rw [found]
    exact congrArg some id

theorem turnAway (sound : GatewaySound gateway) (webSocket : WebSocket) :
    GatewaySound (gateway.turnAway webSocket) where
  registry := sound.registry
  streams := by
    refine @StreamsSound.moved _ gateway.connections _ sound.streams
      sound.streams.lock rfl ?_ ?_ ?_
    · exact fun _ _ joins => joins
    · exact fun _ _ active => ⟨active, rfl⟩
    · exact fun blocked => blocked

/-- A handler which is idle starts its call of `connect`. -/
theorem letIn (sound : GatewaySound gateway) {task : TaskId}
    {webSocket : WebSocket} {apiKey : String} {team : RegisteredTeam}
    (idle : gateway.connections.stage task = .idle)
    (new : ¬ gateway.keys.Contains webSocket)
    (found : gateway.game.getTeamByApiKey apiKey = some team) :
    GatewaySound (gateway.letIn task webSocket apiKey team.info) where
  registry := sound.registry
  streams := by
    have absent := (OrderedDict.get?_eq_none_iff _ _).mpr new
    have closed : gateway.opened webSocket = none := by
      rw [Gateway.opened, absent]
      rfl
    have starts : (gateway.letIn task webSocket apiKey
          team.info).connections =
        gateway.connections.move task
          (.waiting (.connect webSocket team.info)) := by
      simp only [Gateway.letIn, ConnectionCall.execute, idle]
    refine @StreamsSound.opens _ gateway.connections _ task _
      sound.streams (lockInv_execute _ sound.streams.lock) webSocket
      team.info closed ?_ ?_ ?_ ?_ ?_ ?_
    · show ((gateway.keys.set webSocket apiKey).get? webSocket).bind _ =
        some team.teamId
      rw [OrderedDict.get?_set_self]
      show (gateway.game.getTeamByApiKey apiKey).map _ = _
      rw [found]
      rfl
    · intro other teamId isOpen
      have different : other ≠ webSocket := by
        rintro rfl
        cases closed.symm.trans isOpen
      show ((gateway.keys.set webSocket apiKey).get? other).bind _ =
        some teamId
      rw [OrderedDict.get?_set, if_neg different]
      exact isOpen
    · rw [starts]
      exact sound.streams.outgoing_waiting idle _
    · rw [starts]
      intro other entry joins
      by_cases same : other = task
      · subst same
        rw [stage_move_self] at joins
        exact Or.inl ⟨rfl, (Option.some.inj joins).symm⟩
      · rw [stage_move_ne same] at joins
        exact Or.inr joins
    · rw [starts]
      rfl
    · exact fun blocked => blocked.stays sound.streams.lock _

/-- A socket is let in for the team of its key, or is closed. -/
theorem openSocket (sound : GatewaySound gateway) {task : TaskId}
    {webSocket : WebSocket} {apiKey : String}
    (idle : (gateway.connections.stage task).IsIdle)
    (new : ¬ gateway.keys.Contains webSocket) :
    GatewaySound (gateway.openSocket task webSocket apiKey) := by
  rw [Gateway.openSocket]
  cases found : gateway.game.getTeamByApiKey apiKey with
  | none => exact sound.turnAway webSocket
  | some team =>
      cases stage : gateway.connections.stage task with
      | idle => exact sound.letIn stage new found
      | _ =>
          rw [stage] at idle
          cases idle

theorem step {call : GatewayCall} (sound : GatewaySound gateway)
    (step : GatewayStep gateway call next) : GatewaySound next := by
  rcases step with ⟨allowed, rfl⟩
  cases call with
  | registerTeam call => exact sound.registerTeam allowed
  | openSocket task webSocket apiKey =>
      exact sound.openSocket allowed.1 allowed.2
  | connection call =>
      exact ⟨sound.registry, sound.streams.execute allowed⟩

theorem of_run {start : Gateway} {calls : List GatewayCall}
    (sound : GatewaySound start)
    (run : Run GatewayStep start calls gateway) : GatewaySound gateway :=
  run.invariant GatewaySound sound fun _ _ _ reached step =>
    reached.step step

end GatewaySound

/-! ## What a client receives -/

namespace Sample

/-- A message is sent to the first team. -/
def sendingTo (task : TaskId) (succeeded : Bool) : List GatewayCall :=
  [ .connection
      (.startCall task (.sendToTeam alpha.teamId .positionSnapshot ∅)),
    .connection (.acquire task), .connection (.sendEnds task succeeded) ]

/-- The first team opens a socket. -/
def openingSocket (webSocket : WebSocket) : List GatewayCall :=
  [ .openSocket webSocket webSocket alpha.apiKey,
    .connection (.acquire webSocket), .connection (.closeEnds webSocket),
    .connection (.acceptEnds webSocket true) ]

/-- The team comes again between its messages, and a send fails. -/
def reopening : List GatewayCall :=
  registrations.map .registerTeam ++ openingSocket 1 ++
    sendingTo 10 true ++ sendingTo 10 true ++ openingSocket 2 ++
      sendingTo 10 true ++ sendingTo 11 false

end Sample

section Receives

variable {calls : List GatewayCall} {gateway : Gateway}

/--
A client receives nothing which is meant for others: whatever has been sent
over a socket is addressed to the registered team with whose key the socket
has been opened.
-/
theorem messages_private
    (run : Run GatewayStep Gateway.start calls gateway)
    {message : SentMessage} (sent : message ∈ gateway.connections.sent) :
    ∃ team, gateway.game.Registered team ∧
      gateway.keys.get? message.webSocket = some team.apiKey ∧
        message.teamId = team.teamId := by
  have sound := GatewaySound.start.of_run run
  have own := sound.streams.own message (sent_prefix_outgoing.subset sent)
  rcases sound.opened_iff.mp own with ⟨team, registered, key, id⟩
  exact ⟨team, registered, key, id.symm⟩

/-- A team which comes again receives its messages. -/
theorem messages_private_reopened :
    ∃ message ∈ (replay GatewayCall.execute Gateway.start
        Sample.reopening).connections.sent,
      message.webSocket = 2 ∧
        ∃ team,
          (replay GatewayCall.execute Gateway.start
              Sample.reopening).game.Registered team ∧
            (replay GatewayCall.execute Gateway.start
                Sample.reopening).keys.get? message.webSocket =
              some team.apiKey ∧
              message.teamId = team.teamId := by
  have received : ∃ message ∈ (replay GatewayCall.execute Gateway.start
      Sample.reopening).connections.sent, message.webSocket = 2 := by
    decide +kernel
  rcases received with ⟨message, sent, second⟩
  exact ⟨message, sent, second,
    messages_private (run_replay (by decide +kernel)) sent⟩

/--
A client can tell that it has missed nothing: the messages which have been
sent over a socket are numbered from one on in the order in which they were
sent, in every state the tasks can reach, failed sends and reconnections
included.
-/
theorem messages_numbered
    (run : Run GatewayStep Gateway.start calls gateway)
    (webSocket : WebSocket) :
    (streamOf SentMessage.webSocket webSocket
        gateway.connections.sent).map SentMessage.sequenceNumber =
      List.range' 1
        (streamOf SentMessage.webSocket webSocket
          gateway.connections.sent).length :=
  (GatewaySound.start.of_run run).streams.numbered.of_prefix
    sent_prefix_outgoing webSocket

/-- The first socket has received two messages. -/
theorem messages_numbered_reopened :
    (streamOf SentMessage.webSocket 1
        (replay GatewayCall.execute Gateway.start
          Sample.reopening).connections.sent).map
        SentMessage.sequenceNumber =
      List.range' 1
        (streamOf SentMessage.webSocket 1
          (replay GatewayCall.execute Gateway.start
            Sample.reopening).connections.sent).length :=
  messages_numbered (run_replay (by decide +kernel)) 1

end Receives

end InternTradingGame
