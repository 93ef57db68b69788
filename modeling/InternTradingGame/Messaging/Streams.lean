import InternTradingGame.Library.Sequences
import InternTradingGame.Messaging.Connections

/-!
# What arrives over a socket

A socket is handed to `connect` once, for the team it has been opened for.
Whatever is sent over it from then on is addressed to this team, and is
numbered from one on without a gap, however the tasks of all teams get in
each other's way.

A message counts as outgoing from the moment its number is taken.  At any
time at most one is in flight, that of the task which holds the lock.  If its
send fails, the lock is never free again, so the number which is lost is the
last one.
-/

namespace InternTradingGame

open Sequences

/-! ## Outgoing messages -/

/-- The socket a task is about to register, with its team. -/
def TaskStage.joins : TaskStage → Option (WebSocket × TeamInfo)
  | waiting (.connect webSocket team) => some (webSocket, team)
  | closing webSocket team _ => some (webSocket, team)
  | accepting webSocket team => some (webSocket, team)
  | _ => none

/-- The message a task is sending. -/
def TaskStage.inFlight : TaskStage → Option SentMessage
  | sending message => some message
  | _ => none

namespace ConnectionState

/-- The message the holder of the lock is sending. -/
def inFlight (state : ConnectionState) : Option SentMessage :=
  state.holder.bind fun task => (state.stage task).inFlight

/-- The messages which have been sent, and the one in flight. -/
def outgoing (state : ConnectionState) : List SentMessage :=
  state.sent ++ state.inFlight.toList

/-- Nothing has been done with the socket. -/
structure Unused (state : ConnectionState) (webSocket : WebSocket) :
    Prop where
  unsent : ∀ message ∈ state.outgoing, message.webSocket ≠ webSocket
  inactive : ∀ teamId,
    state.manager.activeConnections.get? teamId ≠ some webSocket

end ConnectionState

section InFlight

variable {state : ConnectionState} {task : TaskId} {stage : TaskStage}

@[simp]
theorem inFlight_lock :
    (state.lock task stage).inFlight = stage.inFlight := by
  show ((state.move task stage).stage task).inFlight = stage.inFlight
  rw [stage_move_self]

theorem inFlight_of_free (free : state.holder = none) :
    state.inFlight = none := by
  rw [ConnectionState.inFlight, free]
  rfl

theorem inFlight_of_holder (holder : state.holder = some task) :
    state.inFlight = (state.stage task).inFlight := by
  rw [ConnectionState.inFlight, holder]
  rfl

/-- A task outside the lock has no part in what is in flight. -/
theorem inFlight_move_ne (other : state.holder ≠ some task) :
    (state.move task stage).inFlight = state.inFlight := by
  show state.holder.bind (fun holder =>
    ((state.move task stage).stage holder).inFlight) = _
  cases holder : state.holder with
  | none => exact (inFlight_of_free holder).symm
  | some owner =>
      have different : owner ≠ task := fun same =>
        other (same ▸ holder)
      rw [inFlight_of_holder holder]
      show ((state.move task stage).stage owner).inFlight = _
      rw [stage_move_ne different]

/-- What is in flight is what the holder of the lock goes on with. -/
theorem inFlight_move_holder (holder : state.holder = some task) :
    (state.move task stage).inFlight = stage.inFlight := by
  have held : (state.move task stage).holder = some task := holder
  rw [inFlight_of_holder held, stage_move_self]

theorem outgoing_of_silent (silent : state.inFlight = none) :
    state.outgoing = state.sent := by
  rw [ConnectionState.outgoing, silent]
  exact List.append_nil _

theorem sent_prefix_outgoing : state.sent <+: state.outgoing :=
  List.prefix_append _ _

theorem joins_idle :
    ∀ entry, TaskStage.idle.joins = some entry →
      (state.stage task).joins = some entry := by
  rintro entry ⟨⟩

/-- A task which joins nothing new leaves the joining tasks as they are. -/
theorem joins_move
    (old : ∀ entry, stage.joins = some entry →
      (state.stage task).joins = some entry) :
    ∀ other entry, ((state.move task stage).stage other).joins =
        some entry →
      (state.stage other).joins = some entry := by
  intro other entry joins
  by_cases same : other = task
  · subst same
    rw [stage_move_self] at joins
    exact old entry joins
  · rw [stage_move_ne same] at joins
    exact joins

end InFlight

/-- The step hands no socket to `connect`. -/
def ConnectionCall.OpensNone : ConnectionCall → Prop
  | startCall _ (.connect _ _) => False
  | _ => True

/-! ## What every step keeps -/

/--
The sockets are those of the teams they have been opened for, and the
numbers of their messages go on where they have stopped.
-/
structure StreamsSound (opened : WebSocket → Option String)
    (state : ConnectionState) : Prop where
  lock : LockInv state
  numbered : Numbered SentMessage.webSocket SentMessage.sequenceNumber
    state.outgoing
  own : ∀ message ∈ state.outgoing,
    opened message.webSocket = some message.teamId
  active : ∀ teamId webSocket,
    state.manager.activeConnections.get? teamId = some webSocket →
      opened webSocket = some teamId
  joining : ∀ task webSocket team,
    (state.stage task).joins = some (webSocket, team) →
      opened webSocket = some team.teamId ∧ state.Unused webSocket
  apart : ∀ task other webSocket team otherTeam,
    (state.stage task).joins = some (webSocket, team) →
      (state.stage other).joins = some (webSocket, otherTeam) →
        task = other
  next : ¬ SelfBlocked state → ∀ teamId webSocket,
    state.manager.activeConnections.get? teamId = some webSocket →
      state.manager.sequenceNumbers.get? teamId =
        some
          (streamOf SentMessage.webSocket webSocket state.outgoing).length

namespace StreamsSound

variable {opened : WebSocket → Option String}
  {state next : ConnectionState} {task : TaskId}

theorem start : StreamsSound (fun _ => none) ConnectionState.start where
  lock := lockInv_start
  numbered := numbered_nil
  own := by
    intro message member
    cases member
  active := by
    intro teamId webSocket found
    cases found
  joining := by
    intro task webSocket team joins
    cases joins
  apart := by
    intro task other webSocket team otherTeam joins
    cases joins
  next := by
    intro _ teamId webSocket found
    cases found

/-- More sockets have been opened. -/
theorem mono {wider : WebSocket → Option String}
    (sound : StreamsSound opened state)
    (keeps : ∀ webSocket teamId, opened webSocket = some teamId →
      wider webSocket = some teamId) : StreamsSound wider state where
  lock := sound.lock
  numbered := sound.numbered
  own := fun message member => keeps _ _ (sound.own message member)
  active := fun teamId webSocket found =>
    keeps _ _ (sound.active teamId webSocket found)
  joining := by
    intro task webSocket team joins
    rcases sound.joining task webSocket team joins with ⟨isOpen, unused⟩
    exact ⟨keeps _ _ isOpen, unused⟩
  apart := sound.apart
  next := sound.next

/-- A socket which has not been opened is unused. -/
theorem unused (sound : StreamsSound opened state) {webSocket : WebSocket}
    (closed : opened webSocket = none) : state.Unused webSocket where
  unsent := by
    rintro message member rfl
    cases closed.symm.trans (sound.own message member)
  inactive := by
    intro teamId found
    cases closed.symm.trans (sound.active teamId webSocket found)

/-- Where no task joins anew, no two tasks join with one socket. -/
theorem still_apart (sound : StreamsSound opened state)
    (joins : ∀ other entry, (next.stage other).joins = some entry →
      (state.stage other).joins = some entry) :
    ∀ first second webSocket team otherTeam,
      (next.stage first).joins = some (webSocket, team) →
        (next.stage second).joins = some (webSocket, otherTeam) →
          first = second := by
  intro first second webSocket team otherTeam joinsFirst joinsSecond
  exact sound.apart first second webSocket team otherTeam
    (joins _ _ joinsFirst) (joins _ _ joinsSecond)

/-- Nothing is sent or registered, though a team may have been removed. -/
theorem moved (sound : StreamsSound opened state) (lock : LockInv next)
    (outgoing : next.outgoing = state.outgoing)
    (joins : ∀ other entry, (next.stage other).joins = some entry →
      (state.stage other).joins = some entry)
    (kept : ∀ teamId webSocket,
      next.manager.activeConnections.get? teamId = some webSocket →
        state.manager.activeConnections.get? teamId = some webSocket ∧
          next.manager.sequenceNumbers.get? teamId =
            state.manager.sequenceNumbers.get? teamId)
    (blocked : SelfBlocked state → SelfBlocked next) :
    StreamsSound opened next where
  lock := lock
  numbered := outgoing ▸ sound.numbered
  own := outgoing ▸ sound.own
  active teamId webSocket found :=
    sound.active teamId webSocket (kept teamId webSocket found).1
  joining := by
    intro other webSocket team joining
    rcases sound.joining other webSocket team (joins _ _ joining) with
      ⟨isOpen, unused⟩
    refine ⟨isOpen, outgoing ▸ unused.unsent, ?_⟩
    intro teamId found
    exact unused.inactive teamId (kept teamId webSocket found).1
  apart := sound.still_apart joins
  next := by
    intro free teamId webSocket found
    rcases kept teamId webSocket found with ⟨active, same⟩
    rw [same, outgoing]
    exact sound.next (mt blocked free) teamId webSocket active

/-- The task takes the next number of a team and sends. -/
theorem sends (sound : StreamsSound opened state)
    (free : state.holder = none) (lock : LockInv next)
    {message : SentMessage}
    (active : state.manager.activeConnections.get? message.teamId =
      some message.webSocket)
    (taken : state.manager.sequenceNumbers.get? message.teamId =
      some (message.sequenceNumber - 1))
    (positive : 0 < message.sequenceNumber)
    (outgoing : next.outgoing = state.outgoing ++ [message])
    (joins : ∀ other entry, (next.stage other).joins = some entry →
      (state.stage other).joins = some entry)
    (manager : next.manager =
      state.manager.advance message.teamId message.sequenceNumber) :
    StreamsSound opened next := by
  have unblocked : ¬ SelfBlocked state := by
    rintro ⟨holder, held, _⟩
    cases free.symm.trans held
  have number : message.sequenceNumber =
      (streamOf SentMessage.webSocket message.webSocket
        state.outgoing).length + 1 := by
    have counted := taken.symm.trans
      (sound.next unblocked message.teamId message.webSocket active)
    have equal := Option.some.inj counted
    omega
  have isOpen := sound.active message.teamId message.webSocket active
  constructor
  · exact lock
  · rw [outgoing]
    exact sound.numbered.concat number
  · rw [outgoing]
    intro other member
    rcases List.mem_append.mp member with old | new
    · exact sound.own other old
    · rw [List.mem_singleton.mp new]
      exact isOpen
  · rw [manager]
    exact sound.active
  · intro other webSocket team joining
    rcases sound.joining other webSocket team (joins _ _ joining) with
      ⟨opens, unused⟩
    refine ⟨opens, ?_, ?_⟩
    · rw [outgoing]
      intro sent member
      rcases List.mem_append.mp member with old | new
      · exact unused.unsent sent old
      · rw [List.mem_singleton.mp new]
        rintro rfl
        exact unused.inactive message.teamId active
    · rw [manager]
      exact unused.inactive
  · exact sound.still_apart joins
  · intro _ teamId webSocket found
    rw [manager] at found
    have before : state.manager.activeConnections.get? teamId =
      some webSocket := found
    rw [manager, outgoing]
    show (state.manager.sequenceNumbers.set message.teamId _).get? teamId =
      _
    rw [OrderedDict.get?_set]
    by_cases same : teamId = message.teamId
    · subst same
      rcases Option.some.inj (active.symm.trans before) with rfl
      rw [if_pos rfl, streamOf_concat_self, List.length_append, number]
      rfl
    · have other : message.webSocket ≠ webSocket := by
        rintro rfl
        exact same (Option.some.inj
          ((sound.active _ _ before).symm.trans isOpen))
      rw [if_neg same, streamOf_concat_ne other]
      exact sound.next unblocked teamId webSocket before

/-- The socket a task has joined with is registered. -/
theorem enters (sound : StreamsSound opened state) (lock : LockInv next)
    {webSocket : WebSocket} {team : TeamInfo}
    (joined : (state.stage task).joins = some (webSocket, team))
    (unblocked : ¬ SelfBlocked state)
    (outgoing : next.outgoing = state.outgoing)
    (done : (next.stage task).joins = none)
    (joins : ∀ other entry, (next.stage other).joins = some entry →
      (state.stage other).joins = some entry)
    (manager : next.manager = state.manager.enter webSocket team) :
    StreamsSound opened next := by
  rcases sound.joining task webSocket team joined with ⟨isOpen, unused⟩
  have active : ∀ teamId other,
      next.manager.activeConnections.get? teamId = some other →
        teamId = team.teamId ∧ other = webSocket ∨
          teamId ≠ team.teamId ∧
            state.manager.activeConnections.get? teamId = some other := by
    intro teamId other found
    rw [manager] at found
    have entered :
        (state.manager.activeConnections.set team.teamId webSocket).get?
          teamId = some other := found
    rw [OrderedDict.get?_set] at entered
    split_ifs at entered with same
    · exact Or.inl ⟨same, (Option.some.inj entered).symm⟩
    · exact Or.inr ⟨same, entered⟩
  constructor
  · exact lock
  · exact outgoing ▸ sound.numbered
  · exact outgoing ▸ sound.own
  · intro teamId other found
    rcases active teamId other found with ⟨rfl, rfl⟩ | ⟨_, before⟩
    · exact isOpen
    · exact sound.active teamId other before
  · intro other joining otherTeam joinsOther
    rcases sound.joining other joining otherTeam (joins _ _ joinsOther)
      with ⟨opens, otherUnused⟩
    refine ⟨opens, outgoing ▸ otherUnused.unsent, ?_⟩
    intro teamId found
    rcases active teamId joining found with ⟨rfl, rfl⟩ | ⟨_, before⟩
    · have same := sound.apart task other joining team otherTeam joined
        (joins _ _ joinsOther)
      subst same
      cases done.symm.trans joinsOther
    · exact otherUnused.inactive teamId before
  · exact sound.still_apart joins
  · intro _ teamId other found
    rw [manager, outgoing]
    show (state.manager.sequenceNumbers.set team.teamId 0).get? teamId = _
    rw [OrderedDict.get?_set]
    rcases active teamId other found with ⟨rfl, rfl⟩ | ⟨different, before⟩
    · rw [if_pos rfl, streamOf_eq_nil unused.unsent]
      rfl
    · rw [if_neg different]
      exact sound.next unblocked teamId other before

/-- A send fails, and its task holds the lock ever after. -/
theorem fails (sound : StreamsSound opened state) (lock : LockInv next)
    (outgoing : next.outgoing = state.sent)
    (joins : ∀ other entry, (next.stage other).joins = some entry →
      (state.stage other).joins = some entry)
    (manager : next.manager = state.manager)
    (blocked : SelfBlocked next) : StreamsSound opened next where
  lock := lock
  numbered := outgoing ▸ sound.numbered.of_prefix sent_prefix_outgoing
  own := by
    rw [outgoing]
    intro message member
    exact sound.own message (sent_prefix_outgoing.subset member)
  active := manager ▸ sound.active
  joining := by
    intro other webSocket team joining
    rcases sound.joining other webSocket team (joins _ _ joining) with
      ⟨isOpen, unused⟩
    refine ⟨isOpen, ?_, manager ▸ unused.inactive⟩
    rw [outgoing]
    intro message member
    exact unused.unsent message (sent_prefix_outgoing.subset member)
  apart := sound.still_apart joins
  next := fun free => absurd blocked free

/-- A task hands in a socket which has just been opened. -/
theorem opens {wider : WebSocket → Option String}
    (sound : StreamsSound opened state) (lock : LockInv next)
    {webSocket : WebSocket} {team : TeamInfo}
    (closed : opened webSocket = none)
    (isOpen : wider webSocket = some team.teamId)
    (keeps : ∀ other teamId, opened other = some teamId →
      wider other = some teamId)
    (outgoing : next.outgoing = state.outgoing)
    (joins : ∀ other entry, (next.stage other).joins = some entry →
      other = task ∧ entry = (webSocket, team) ∨
        (state.stage other).joins = some entry)
    (manager : next.manager = state.manager)
    (blocked : SelfBlocked state → SelfBlocked next) :
    StreamsSound wider next := by
  have wide := sound.mono keeps
  have unused := sound.unused closed
  have unjoined : ∀ other otherTeam,
      (state.stage other).joins ≠ some (webSocket, otherTeam) := by
    intro other otherTeam joining
    cases closed.symm.trans
      (sound.joining other webSocket otherTeam joining).1
  constructor
  · exact lock
  · exact outgoing ▸ wide.numbered
  · exact outgoing ▸ wide.own
  · exact manager ▸ wide.active
  · intro other joining otherTeam joinsOther
    rcases joins other _ joinsOther with ⟨rfl, entry⟩ | before
    · cases entry
      exact ⟨isOpen, outgoing ▸ unused.unsent, manager ▸ unused.inactive⟩
    · rcases wide.joining other joining otherTeam before with
        ⟨opens, otherUnused⟩
      exact ⟨opens, outgoing ▸ otherUnused.unsent,
        manager ▸ otherUnused.inactive⟩
  · intro first second other firstTeam secondTeam joinsFirst joinsSecond
    rcases joins first _ joinsFirst with ⟨rfl, entry⟩ | before
    · cases entry
      rcases joins second _ joinsSecond with ⟨rfl, _⟩ | already
      · rfl
      · exact absurd already (unjoined second secondTeam)
    · rcases joins second _ joinsSecond with ⟨rfl, entry⟩ | already
      · cases entry
        exact absurd before (unjoined first firstTeam)
      · exact sound.apart first second other firstTeam secondTeam before
          already
  · rw [manager, outgoing]
    exact fun free => sound.next (mt blocked free)

theorem holder (sound : StreamsSound opened state)
    (holds : (state.stage task).holdsLock = true) :
    state.holder = some task :=
  (sound.lock task).mp holds

/--
The first steps of a call under the lock.  Whether or not an older socket is
closed first, a task which connects stays the one which joins with its
socket.
-/
theorem enterCall (sound : StreamsSound opened state)
    (free : state.holder = none) {call : ManagerCall}
    (waits : state.stage task = .waiting call) :
    StreamsSound opened (state.enterCall task call) := by
  have lock := sound.lock.enterCall free waits
  have silent := inFlight_of_free free
  have unblocked : ¬ SelfBlocked state := by
    rintro ⟨holder, held, _⟩
    cases free.symm.trans held
  have quiet : ∀ next : ConnectionState, next.sent = state.sent →
      next.inFlight = none → next.outgoing = state.outgoing := by
    intro next sent nextSilent
    rw [outgoing_of_silent nextSilent, outgoing_of_silent silent, sent]
  cases call with
  | connect webSocket team =>
      have locks : ∀ stage : TaskStage,
          stage.joins = some (webSocket, team) → stage.inFlight = none →
            LockInv (state.lock task stage) →
              StreamsSound opened (state.lock task stage) := by
        intro stage joined unsent lock
        apply sound.moved lock
        · exact quiet _ rfl (inFlight_lock.trans unsent)
        · apply joins_move
          intro entry joins
          rw [waits]
          exact joined.symm.trans joins
        · exact fun _ _ found => ⟨found, rfl⟩
        · exact fun blocked => absurd blocked unblocked
      revert lock
      rw [ConnectionState.enterCall]
      cases state.manager.activeConnections.get? team.teamId with
      | some old => exact locks _ rfl rfl
      | none => exact locks _ rfl rfl
  | disconnect teamId =>
      apply sound.moved lock
      · exact quiet _ rfl (inFlight_of_free free)
      · exact joins_move joins_idle
      · intro other webSocket found
        have erased :
            (state.manager.activeConnections.erase teamId).get? other =
              some webSocket := found
        rw [OrderedDict.get?_erase] at erased
        split_ifs at erased with same
        refine ⟨erased, ?_⟩
        show (state.manager.sequenceNumbers.erase teamId).get? other = _
        rw [OrderedDict.get?_erase, if_neg same]
      · exact fun blocked => absurd blocked unblocked
  | sendToTeam teamId messageType data =>
      revert lock
      rw [ConnectionState.enterCall]
      split
      case h_1 webSocket last active taken =>
        intro lock
        refine @StreamsSound.sends _ _ _ sound free lock
          { webSocket, teamId, messageType, data
            sequenceNumber := last + 1 } ?_ ?_ ?_ ?_ ?_ ?_
        · exact active
        · exact taken
        · exact Nat.succ_pos last
        · rw [outgoing_of_silent silent]
          exact congrArg (state.sent ++ Option.toList ·) inFlight_lock
        · exact joins_move fun entry joins => by cases joins
        · rfl
      case h_2 =>
        intro lock
        apply sound.moved lock
        · exact quiet _ rfl (inFlight_of_free free)
        · exact joins_move joins_idle
        · exact fun _ _ found => ⟨found, rfl⟩
        · exact fun blocked => absurd blocked unblocked

/-- A task outside the lock starts to wait for it. -/
theorem outgoing_waiting (sound : StreamsSound opened state)
    (idle : state.stage task = .idle) (call : ManagerCall) :
    (state.move task (.waiting call)).outgoing = state.outgoing := by
  have outside : state.holder ≠ some task := by
    rw [Ne, ← sound.lock task, idle]
    exact Bool.false_ne_true
  exact congrArg (state.sent ++ Option.toList ·) (inFlight_move_ne outside)

theorem startCall (sound : StreamsSound opened state) (task : TaskId)
    {call : ManagerCall}
    (opensNone : (ConnectionCall.startCall task call).OpensNone) :
    StreamsSound opened
      (ConnectionCall.execute (.startCall task call) state) := by
  have lock := lockInv_execute (.startCall task call) sound.lock
  have blocked := fun before : SelfBlocked state =>
    before.stays sound.lock (.startCall task call)
  revert lock blocked
  rw [ConnectionCall.execute]
  split
  case h_1 idle =>
    intro lock blocked
    apply sound.moved lock (sound.outgoing_waiting idle call)
    · apply joins_move
      intro entry joins
      cases call with
      | connect webSocket team => cases opensNone
      | disconnect teamId => cases joins
      | sendToTeam teamId messageType data => cases joins
    · exact fun _ _ found => ⟨found, rfl⟩
    · exact blocked
  case h_2 => exact fun _ _ => sound

theorem acquire (sound : StreamsSound opened state) (task : TaskId) :
    StreamsSound opened
      (ConnectionCall.execute (.acquire task) state) := by
  rw [ConnectionCall.execute]
  split
  case h_1 call free waits => exact sound.enterCall free waits
  case h_2 teamId free disconnects =>
    have held : state.holder = some task := sound.holder (by
      rw [disconnects]
      rfl)
    cases free.symm.trans held
  case h_3 => exact sound

/-- The older socket is closed, and the task goes on with its own. -/
theorem closeEnds (sound : StreamsSound opened state) (task : TaskId) :
    StreamsSound opened
      (ConnectionCall.execute (.closeEnds task) state) := by
  have lock := lockInv_execute (.closeEnds task) sound.lock
  have blocked := fun before : SelfBlocked state =>
    before.stays sound.lock (.closeEnds task)
  revert lock blocked
  rw [ConnectionCall.execute]
  split
  case h_1 webSocket team old closing =>
    intro lock blocked
    have held : state.holder = some task := sound.holder (by
      rw [closing]
      rfl)
    have silent : state.inFlight = none := by
      rw [inFlight_of_holder held, closing]
      rfl
    apply sound.moved lock
    · rw [outgoing_of_silent silent]
      exact outgoing_of_silent (inFlight_move_holder held)
    · apply joins_move
      intro entry joins
      rw [closing]
      exact joins
    · exact fun _ _ found => ⟨found, rfl⟩
    · exact blocked
  case h_2 => exact fun _ _ => sound

/-- The socket of the task is registered, or could not be accepted. -/
theorem acceptEnds (sound : StreamsSound opened state) (task : TaskId)
    (succeeded : Bool) :
    StreamsSound opened
      (ConnectionCall.execute (.acceptEnds task succeeded) state) := by
  have lock := lockInv_execute (.acceptEnds task succeeded) sound.lock
  have blocked := fun before : SelfBlocked state =>
    before.stays sound.lock (.acceptEnds task succeeded)
  revert lock blocked
  rw [ConnectionCall.execute]
  split
  case h_1 webSocket team accepting =>
    intro lock blocked
    have held : state.holder = some task := sound.holder (by
      rw [accepting]
      rfl)
    have silent : state.inFlight = none := by
      rw [inFlight_of_holder held, accepting]
      rfl
    have released : (state.release task).outgoing = state.outgoing := by
      rw [outgoing_of_silent silent]
      exact outgoing_of_silent (inFlight_of_free rfl)
    cases succeeded with
    | true =>
        have joined : (state.stage task).joins =
            some (webSocket, team) := by
          rw [accepting]
          rfl
        apply sound.enters lock joined
        · intro before
          rcases sound.lock.selfBlocked_iff.mp before with
            ⟨other, teamId, disconnects⟩
          have isHolder : state.holder = some other := sound.holder (by
            rw [disconnects]
            rfl)
          rcases Option.some.inj (isHolder.symm.trans held) with rfl
          cases disconnects.symm.trans accepting
        · exact released
        · show ((state.move task .idle).stage task).joins = none
          rw [stage_move_self]
          rfl
        · exact joins_move joins_idle
        · rfl
    | false =>
        apply sound.moved lock released
        · exact joins_move joins_idle
        · exact fun _ _ found => ⟨found, rfl⟩
        · exact blocked
  case h_2 => exact fun _ _ => sound

/-- The message in flight has been sent, or is lost for good. -/
theorem sendEnds (sound : StreamsSound opened state) (task : TaskId)
    (succeeded : Bool) :
    StreamsSound opened
      (ConnectionCall.execute (.sendEnds task succeeded) state) := by
  have lock := lockInv_execute (.sendEnds task succeeded) sound.lock
  have blocked := fun before : SelfBlocked state =>
    before.stays sound.lock (.sendEnds task succeeded)
  revert lock blocked
  rw [ConnectionCall.execute]
  split
  case h_1 message sending =>
    intro lock blocked
    have held : state.holder = some task := sound.holder (by
      rw [sending]
      rfl)
    cases succeeded with
    | true =>
        have flying : state.inFlight = some message := by
          rw [inFlight_of_holder held, sending]
          rfl
        have whole : state.outgoing = state.sent ++ [message] :=
          congrArg (state.sent ++ Option.toList ·) flying
        apply sound.moved lock
        · rw [whole]
          exact outgoing_of_silent (inFlight_of_free rfl)
        · exact joins_move joins_idle
        · exact fun _ _ found => ⟨found, rfl⟩
        · exact blocked
    | false =>
        apply sound.fails lock
        · exact outgoing_of_silent (inFlight_move_holder held)
        · exact joins_move fun entry joins => by cases joins
        · rfl
        · refine ⟨task, held, ?_⟩
          show ((state.move task
            (.disconnecting message.teamId)).stage task).awaitsLock = true
          rw [stage_move_self]
          rfl
  case h_2 => exact fun _ _ => sound

/-- Every step keeps the streams, if it hands in no socket. -/
theorem execute (sound : StreamsSound opened state)
    {call : ConnectionCall} (opensNone : call.OpensNone) :
    StreamsSound opened (call.execute state) := by
  cases call with
  | startCall task call => exact sound.startCall task opensNone
  | acquire task => exact sound.acquire task
  | closeEnds task => exact sound.closeEnds task
  | acceptEnds task succeeded => exact sound.acceptEnds task succeeded
  | sendEnds task succeeded => exact sound.sendEnds task succeeded

end StreamsSound

end InternTradingGame
