import Mathlib.Data.List.Perm.Subperm
import InternTradingGame.Response.Steps

/-!
# The two dictionaries of the coordinator

Every step keeps the stored results among the pending requests, except a
wait that runs out of time and then gives up on a request which has been
completed in between: it removes the request and leaves the result behind.

Every step keeps status, event and result of a pending request in agreement,
except a status update to a terminal status: it sets neither the event nor a
result.
-/

namespace InternTradingGame

open Coordinator

/-! ## Results and requests -/

/-- The stored results belong to pending requests, within the capacity. -/
structure ResultsBounded (config : CoordinationConfig)
    (state : ResponseSystem) : Prop where
  inclusion : ∀ requestId ∈ state.coordinator.completionResults.keys,
    requestId ∈ state.coordinator.pendingRequests
  capacity :
    state.coordinator.pendingRequests.length ≤ config.maxPendingRequests
  memory :
    state.coordinator.completionResults.keys.length ≤
      config.maxPendingRequests

/-- A call gives up only on a request for which no result is stored. -/
def GivesUpUnanswered : CoordinatorCall → ResponseSystem → Prop
  | .giveUp caller, state =>
      ∀ requestId ∈ state.givingUp caller,
        requestId ∈ state.coordinator.pendingRequests →
          state.coordinator.completionResults.get? requestId = none
  | _, _ => True

instance (call : CoordinatorCall) (state : ResponseSystem) :
    Decidable (GivesUpUnanswered call state) := by
  rcases call
  case giveUp caller =>
      exact inferInstanceAs
        (Decidable
          (∀ requestId ∈ state.givingUp caller,
            requestId ∈ state.coordinator.pendingRequests →
              state.coordinator.completionResults.get? requestId = none))
  all_goals exact inferInstanceAs (Decidable True)

namespace Entry

variable {entry : Entry} {requestId : String}

/-- The result belongs to a pending request. -/
def Kept (entry : Entry) : Prop :=
  entry.result.isSome = true → entry.pending = true

theorem Kept.notified (kept : entry.Kept) (response : ApiResponse)
    (orderId : Option String) (now : ℚ) :
    (entry.notified requestId response orderId now).Kept := by
  unfold Entry.notified
  cases live : entry.live with
  | none => exact kept
  | some request =>
      have pending := (live_eq_some_iff.mp live).1
      dsimp only
      split_ifs
      · exact kept
      · intro _
        exact pending

theorem Kept.updated (kept : entry.Kept) (status : ResponseStatus)
    (stageDetails : Option StageDetails) :
    (entry.updated status stageDetails).Kept := by
  unfold Entry.updated
  cases entry.live with
  | none => exact kept
  | some request =>
      dsimp only
      split_ifs
      · exact kept
      · exact kept

theorem Kept.cutOff (kept : entry.Kept) (now : ℚ) :
    (entry.cutOff now).Kept := by
  unfold Entry.cutOff
  cases live : entry.live with
  | none => exact kept
  | some request =>
      have pending := (live_eq_some_iff.mp live).1
      dsimp only
      split_ifs
      · exact kept
      · intro _
        exact pending

theorem kept_removed : entry.removed.Kept := by
  intro stored
  simp [Entry.removed] at stored

theorem Kept.cleaned (kept : entry.Kept) (config : CoordinationConfig)
    (clock : CleanupClock) :
    (entry.cleaned config clock requestId).Kept := by
  unfold Entry.cleaned
  split_ifs
  · intro stored
    simp at stored
  · exact kept

theorem Kept.taken (kept : entry.Kept) : entry.taken.Kept := by
  unfold Entry.taken
  split_ifs
  · exact kept_removed
  · exact kept

/-- Giving up keeps the inclusion exactly when there is no result. -/
theorem kept_givenUp_iff (proper : entry.Proper requestId)
    (kept : entry.Kept) :
    entry.givenUp.Kept ↔
      (entry.pending = true → entry.result = none) := by
  unfold Entry.givenUp
  cases live : entry.live with
  | none =>
      have gone : entry.pending = false := by
        by_contra pending
        rcases proper.live_isSome (Bool.eq_true_of_not_eq_false pending) with
          ⟨request, stored⟩
        rw [live] at stored
        simp at stored
      simp [gone, kept]
  | some request =>
      have pending := (live_eq_some_iff.mp live).1
      simp [Kept, pending]

end Entry

namespace CoordinatorCall

variable {config : CoordinationConfig} {state : ResponseSystem}

theorem kept_onEntry {entry : Entry} {requestId : String}
    (proper : entry.Proper requestId)
    (kept : entry.Kept)
    (call : CoordinatorCall)
    (unanswered : ∀ caller, call = .giveUp caller →
      state.givingUp caller = some requestId →
        entry.pending = true → entry.result = none) :
    (call.onEntry state requestId entry).Kept := by
  cases call with
  | register teamId timeoutSeconds timestamp now registeredAt =>
      simp only [onEntry]
      split_ifs
      · intro _
        rfl
      · exact kept
  | takeResult caller =>
      simp only [onEntry]
      split_ifs
      · exact kept.taken
      · exact kept
  | giveUp caller =>
      simp only [onEntry]
      split_ifs with givingUp
      · exact
          (Entry.kept_givenUp_iff proper kept).mpr
            (unanswered caller rfl givingUp)
      · exact kept
  | notify notified response orderId now =>
      simp only [onEntry]
      split_ifs
      · exact kept.notified response orderId now
      · exact kept
  | updateStatus updated status stageDetails =>
      simp only [onEntry]
      split_ifs
      · exact kept.updated status stageDetails
      · exact kept
  | cleanup clock => exact kept.cleaned state.coordinator.config clock
  | beginShutdown clock => exact kept.cutOff (clock requestId)
  | finishShutdown => exact Entry.kept_removed
  | _ => exact kept

end CoordinatorCall

/-- The entries say which results are bounded. -/
theorem resultsBounded_iff_kept {config : CoordinationConfig}
    {state : ResponseSystem}
    (shape : Shape config state.coordinator) :
    ResultsBounded config state ↔
      ∀ requestId, (state.coordinator.entry requestId).Kept := by
  have contains : ∀ requestId,
      requestId ∈ state.coordinator.completionResults.keys ↔
        (state.coordinator.entry requestId).result.isSome = true := by
    intro requestId
    have exists_iff :=
      state.coordinator.completionResults.contains_iff_exists requestId
    rw [Option.isSome_iff_exists]
    exact exists_iff
  constructor
  · intro bounded requestId stored
    exact
      decide_eq_true
        (bounded.inclusion requestId ((contains requestId).mpr stored))
  · intro kept
    have inclusion :
        ∀ requestId ∈ state.coordinator.completionResults.keys,
          requestId ∈ state.coordinator.pendingRequests := by
      intro requestId member
      exact
        of_decide_eq_true
          (kept requestId ((contains requestId).mp member))
    constructor
    · exact inclusion
    · exact shape.capacity
    · have fewer :=
        (List.subperm_of_subset
          state.coordinator.completionResults.nodup_keys
          inclusion).length_le
      exact fewer.trans shape.capacity

/-- A step which meets the condition keeps the inclusion. -/
theorem resultsBounded_execute {config : CoordinationConfig}
    {state : ResponseSystem} {call : CoordinatorCall}
    (shape : Shape config state.coordinator)
    (bounded : ResultsBounded config state)
    (unanswered : GivesUpUnanswered call state) :
    ResultsBounded config (call.execute state) := by
  have kept := (resultsBounded_iff_kept shape).mp bounded
  apply (resultsBounded_iff_kept
    (CoordinatorCall.shape_execute shape call)).mpr
  intro requestId
  rw [CoordinatorCall.entry_execute shape]
  apply CoordinatorCall.kept_onEntry (shape.proper requestId)
    (kept requestId)
  rintro caller rfl givingUp pending
  exact unanswered requestId givingUp (of_decide_eq_true pending)

/-- A step which does not meet it leaves a result behind. -/
theorem not_resultsBounded_execute {config : CoordinationConfig}
    {state : ResponseSystem} {call : CoordinatorCall}
    (shape : Shape config state.coordinator)
    (bounded : ResultsBounded config state)
    (answered : ¬ GivesUpUnanswered call state) :
    ¬ ResultsBounded config (call.execute state) := by
  cases call with
  | giveUp caller =>
      intro still
      apply answered
      intro requestId givingUp pending
      have kept :=
        (resultsBounded_iff_kept
          (CoordinatorCall.shape_execute shape (.giveUp caller))).mp
            still requestId
      rw [CoordinatorCall.entry_execute shape] at kept
      simp only [CoordinatorCall.onEntry] at kept
      rw [if_pos (show state.givingUp caller = some requestId from
          givingUp),
        Entry.kept_givenUp_iff (shape.proper requestId)
          ((resultsBounded_iff_kept shape).mp bounded requestId)] at kept
      exact kept (decide_eq_true pending)
  | _ => exact absurd trivial answered

theorem resultsBounded_start (config : CoordinationConfig) :
    ResultsBounded config (.start config) := by
  apply (resultsBounded_iff_kept (Shape.new config)).mpr
  intro requestId stored
  have none : ((Coordinator.new config).entry requestId).result = none :=
    by rw [entry_new]
  change ((Coordinator.new config).entry requestId).result.isSome = true
    at stored
  rw [none] at stored
  simp at stored

/--
No result outlives its request, and the memory of the coordinator is bounded
by its capacity, in every state of a run exactly when no call gives up on a
request that has been completed.
-/
theorem resultsBounded_iff {config : CoordinationConfig}
    {labels : List CoordinatorCall} {finish : ResponseSystem}
    (run : Run CoordinatorStep (.start config) labels finish) :
    Throughout CoordinatorStep (.start config) labels
        (ResultsBounded config) ↔
      Permitted GivesUpUnanswered CoordinatorCall.execute
        (.start config) labels :=
  run.throughout_iff
    (fun state => Shape config state.coordinator)
    (ResultsBounded config)
    (Shape.new config)
    (fun _ call shape _ => CoordinatorCall.shape_execute shape call)
    (resultsBounded_start config)
    (fun _ _ shape bounded _ unanswered =>
      resultsBounded_execute shape bounded unanswered)
    (fun _ _ shape bounded _ answered =>
      not_resultsBounded_execute shape bounded answered)

namespace Sample

/-- The response to an order which is accepted. -/
def acceptance : ApiResponse where
  success := true
  requestId := "req_7_000001"
  orderId := some "ORDER"
  error := none

/-- A request is answered while its call is still waiting. -/
def answeredCalls : List CoordinatorCall :=
  [.register "TEAM" none 7 0 0,
    .lookup 1 "req_7_000001" none 0,
    .notify "req_7_000001" acceptance (some "ORDER") 1,
    .wake 1,
    .takeResult 1]

/-- A request is answered after its call has run out of time. -/
def lateCalls : List CoordinatorCall :=
  [.register "TEAM" none 7 0 0,
    .lookup 1 "req_7_000001" none 0,
    .expire 1,
    .notify "req_7_000001" acceptance (some "ORDER") 5,
    .composeTimeout 1 5000,
    .giveUp 1]

end Sample

theorem resultsBounded_answered :
    Throughout CoordinatorStep (.start {}) Sample.answeredCalls
      (ResultsBounded {}) :=
  (resultsBounded_iff
    (run_replay
      (show
        Permitted CoordinatorCall.Allowed CoordinatorCall.execute
          (.start {}) Sample.answeredCalls by
        decide +kernel))).mpr
    (by decide +kernel)

/-- A result is left behind when the notification comes late. -/
theorem lateResult_outlives :
    ¬ ∀ (config : CoordinationConfig) (labels : List CoordinatorCall)
        (finish : ResponseSystem),
      Run CoordinatorStep (.start config) labels finish →
        Throughout CoordinatorStep (.start config) labels
          (ResultsBounded config) := by
  intro bounded
  have run :
      Run CoordinatorStep (.start {}) Sample.lateCalls
        (replay CoordinatorCall.execute (.start {}) Sample.lateCalls) :=
    run_replay (by decide +kernel)
  have inclusion :=
    (bounded {} Sample.lateCalls _ run Sample.lateCalls [] _
      (List.append_nil _).symm run).inclusion "req_7_000001"
  exact
    absurd (inclusion (by decide +kernel)) (by decide +kernel)

/-! ## Status, event and result -/

/-- Status, event and result of a pending request agree. -/
def Coherent (state : ResponseSystem) : Prop :=
  ∀ requestId ∈ state.coordinator.pendingRequests,
    ∀ request ∈ state.coordinator.requests.get? requestId,
      (request.status.isTerminal = true ↔
          request.completionEvent = true) ∧
        (request.completionEvent = true ↔
          state.coordinator.completionResults.Contains requestId)

/--
A request with a terminal status keeps its status and its result, as long as
it is not removed.
-/
def Settled (state next : ResponseSystem) : Prop :=
  ∀ requestId ∈ state.coordinator.pendingRequests,
    ∀ request ∈ state.coordinator.requests.get? requestId,
      request.status.isTerminal = true →
        requestId ∈ next.coordinator.pendingRequests →
          (∃ later ∈ next.coordinator.requests.get? requestId,
              later.status = request.status) ∧
            next.coordinator.completionResults.get? requestId =
              state.coordinator.completionResults.get? requestId

/-- No status update gives an active request a terminal status. -/
def UpdatesToActive : CoordinatorCall → ResponseSystem → Prop
  | .updateStatus requestId status _, state =>
      ∀ request ∈ state.coordinator.pendingRequest? requestId,
        request.status.isTerminal = false → status.isTerminal = false
  | _, _ => True

instance (call : CoordinatorCall) (state : ResponseSystem) :
    Decidable (UpdatesToActive call state) := by
  rcases call
  case updateStatus requestId status _ =>
      exact inferInstanceAs
        (Decidable
          (∀ request ∈ state.coordinator.pendingRequest? requestId,
            request.status.isTerminal = false →
              status.isTerminal = false))
  all_goals exact inferInstanceAs (Decidable True)

namespace Entry

variable {entry : Entry} {requestId : String}

/-- Status, event and result of the request agree while it is pending. -/
def Agrees (entry : Entry) : Prop :=
  ∀ request ∈ entry.live,
    request.status.isTerminal = request.completionEvent ∧
      request.completionEvent = entry.result.isSome

theorem agrees_of_not_pending (gone : entry.pending = false) :
    entry.Agrees := by
  intro request live
  rw [live_eq_none_of_not_pending gone] at live
  simp at live

theorem Proper.agrees_registered (proper : entry.Proper requestId)
    (absent : entry.request = none)
    {request : PendingRequest}
    (active : request.status.isTerminal = false)
    (unset : request.completionEvent = false) :
    (entry.registered request).Agrees := by
  intro stored live
  obtain rfl : request = stored := by
    simpa [Entry.live, Entry.registered] using live
  have unanswered :
      (entry.registered request).result = none :=
    proper.answered absent
  rw [active, unset, unanswered]
  exact ⟨rfl, rfl⟩

theorem Agrees.notified (agrees : entry.Agrees)
    (response : ApiResponse) (orderId : Option String) (now : ℚ) :
    (entry.notified requestId response orderId now).Agrees := by
  unfold Entry.notified
  cases live : entry.live with
  | none => exact agrees
  | some request =>
      dsimp only
      split_ifs
      · exact agrees
      · intro stored member
        have pending := (live_eq_some_iff.mp live).1
        have changed := (live_eq_some_iff.mp member).2
        simp only [Option.some.injEq] at changed
        subst changed
        exact ⟨response.finalStatus_isTerminal, rfl⟩

theorem Agrees.cutOff (agrees : entry.Agrees) (now : ℚ) :
    (entry.cutOff now).Agrees := by
  unfold Entry.cutOff
  cases live : entry.live with
  | none => exact agrees
  | some request =>
      dsimp only
      split_ifs
      · exact agrees
      · intro stored member
        have changed := (live_eq_some_iff.mp member).2
        simp only [Option.some.injEq] at changed
        subst changed
        exact ⟨rfl, rfl⟩

theorem Agrees.cleaned (agrees : entry.Agrees)
    (config : CoordinationConfig) (clock : CleanupClock) :
    (entry.cleaned config clock requestId).Agrees := by
  unfold Entry.cleaned
  split_ifs
  · exact agrees_of_not_pending rfl
  · exact agrees

theorem Agrees.taken (agrees : entry.Agrees) : entry.taken.Agrees := by
  unfold Entry.taken
  split_ifs
  · exact agrees_of_not_pending rfl
  · exact agrees

theorem Agrees.givenUp (agrees : entry.Agrees) :
    entry.givenUp.Agrees := by
  unfold Entry.givenUp
  cases entry.live with
  | none => exact agrees
  | some request => exact agrees_of_not_pending rfl

/-- An update changes neither the event nor the identity of a request. -/
theorem updateStage_keeps (request : PendingRequest)
    (stageDetails : Option StageDetails) :
    (request.updateStage stageDetails).status = request.status ∧
      (request.updateStage stageDetails).completionEvent =
        request.completionEvent := by
  cases stageDetails with
  | none => exact ⟨rfl, rfl⟩
  | some details =>
      unfold PendingRequest.updateStage
      apply Sequences.foldl_invariant PendingRequest.addMetric
        (fun changed =>
          changed.status = request.status ∧
            changed.completionEvent = request.completionEvent)
      · intro changed detail _ same
        unfold PendingRequest.addMetric
        split_ifs
        · exact same
        · exact same
      · exact ⟨rfl, rfl⟩

/-- An update of an active request keeps agreement when it stays active. -/
theorem Agrees.updated_iff (agrees : entry.Agrees)
    (status : ResponseStatus) (stageDetails : Option StageDetails) :
    (entry.updated status stageDetails).Agrees ↔
      ∀ request ∈ entry.live, request.status.isTerminal = false →
        status.isTerminal = false := by
  unfold Entry.updated
  cases live : entry.live with
  | none => simp [agrees]
  | some request =>
      rcases live_eq_some_iff.mp live with ⟨pending, _⟩
      rcases agrees request live with ⟨event, result⟩
      by_cases terminal : request.status.isTerminal = true
      · simp [terminal, agrees]
      · rw [Bool.not_eq_true] at terminal
        have kept :=
          updateStage_keeps { request with status := status }
            stageDetails
        rw [terminal] at event
        simp only [terminal, Bool.false_eq_true, if_false]
        constructor
        · intro agreement stored member _
          have after := agreement _ (live_eq_some_iff.mpr ⟨pending, rfl⟩)
          rw [kept.1, kept.2] at after
          exact after.1.trans event.symm
        · intro active stored member
          have changed := (live_eq_some_iff.mp member).2
          simp only [Option.some.injEq] at changed
          subst changed
          rw [kept.1, kept.2]
          exact ⟨(active request rfl terminal).trans event, result⟩

/-- A request with a terminal status is settled. -/
def Settles (before after : Entry) : Prop :=
  ∀ request ∈ before.live, request.status.isTerminal = true →
    after.pending = true →
      (∃ later ∈ after.request, later.status = request.status) ∧
        after.result = before.result

theorem settles_refl (entry : Entry) : entry.Settles entry := by
  intro request live _ _
  exact ⟨⟨request, (live_eq_some_iff.mp live).2, rfl⟩, rfl⟩

theorem settles_of_gone {after : Entry} (gone : after.pending = false) :
    entry.Settles after := by
  intro request _ _ pending
  rw [gone] at pending
  exact absurd pending (by decide)

theorem settles_of_idle {after : Entry}
    (idle : ∀ request ∈ entry.live, request.status.isTerminal = false) :
    entry.Settles after := by
  intro request live terminal
  rw [idle request live] at terminal
  exact absurd terminal (by decide)

theorem settles_notified (entry : Entry) (response : ApiResponse)
    (orderId : Option String) (now : ℚ) :
    entry.Settles (entry.notified requestId response orderId now) := by
  unfold Entry.notified
  cases live : entry.live with
  | none => exact settles_refl entry
  | some request =>
      dsimp only
      split_ifs with terminal
      · exact settles_refl entry
      · apply settles_of_idle
        intro stored member
        rw [live] at member
        rcases Option.some.inj member with rfl
        exact Bool.eq_false_iff.mpr terminal

theorem settles_updated (entry : Entry) (status : ResponseStatus)
    (stageDetails : Option StageDetails) :
    entry.Settles (entry.updated status stageDetails) := by
  unfold Entry.updated
  cases live : entry.live with
  | none => exact settles_refl entry
  | some request =>
      dsimp only
      split_ifs with terminal
      · exact settles_refl entry
      · apply settles_of_idle
        intro stored member
        rw [live] at member
        rcases Option.some.inj member with rfl
        exact Bool.eq_false_iff.mpr terminal

theorem settles_cutOff (entry : Entry) (now : ℚ) :
    entry.Settles (entry.cutOff now) := by
  unfold Entry.cutOff
  cases live : entry.live with
  | none => exact settles_refl entry
  | some request =>
      dsimp only
      split_ifs with terminal
      · exact settles_refl entry
      · apply settles_of_idle
        intro stored member
        rw [live] at member
        rcases Option.some.inj member with rfl
        exact Bool.eq_false_iff.mpr terminal

theorem settles_cleaned (entry : Entry) (config : CoordinationConfig)
    (clock : CleanupClock) :
    entry.Settles (entry.cleaned config clock requestId) := by
  unfold Entry.cleaned
  split_ifs
  · exact settles_of_gone rfl
  · exact settles_refl entry

theorem settles_taken (entry : Entry) : entry.Settles entry.taken := by
  unfold Entry.taken
  split_ifs
  · exact settles_of_gone rfl
  · exact settles_refl entry

theorem settles_givenUp (entry : Entry) :
    entry.Settles entry.givenUp := by
  unfold Entry.givenUp
  cases entry.live with
  | none => exact settles_refl entry
  | some request => exact settles_of_gone rfl

end Entry

namespace CoordinatorCall

variable {config : CoordinationConfig} {state : ResponseSystem}

theorem settles_onEntry (shape : Shape config state.coordinator)
    (call : CoordinatorCall) (requestId : String) :
    (state.coordinator.entry requestId).Settles
      (call.onEntry state requestId
        (state.coordinator.entry requestId)) := by
  cases call with
  | register teamId timeoutSeconds timestamp now registeredAt =>
      simp only [onEntry]
      split_ifs with accepted
      · have fresh := shape.next_fresh timestamp
        rw [← accepted.2] at fresh
        apply Entry.settles_of_idle
        intro request live
        rw [(Entry.live_eq_some_iff.mp live).2] at fresh
        exact absurd fresh (by simp)
      · exact Entry.settles_refl _
  | takeResult caller =>
      simp only [onEntry]
      split_ifs
      · exact Entry.settles_taken _
      · exact Entry.settles_refl _
  | giveUp caller =>
      simp only [onEntry]
      split_ifs
      · exact Entry.settles_givenUp _
      · exact Entry.settles_refl _
  | notify notified response orderId now =>
      simp only [onEntry]
      split_ifs
      · exact Entry.settles_notified _ response orderId now
      · exact Entry.settles_refl _
  | updateStatus updated status stageDetails =>
      simp only [onEntry]
      split_ifs
      · exact Entry.settles_updated _ status stageDetails
      · exact Entry.settles_refl _
  | cleanup clock => exact Entry.settles_cleaned _ _ clock
  | beginShutdown clock => exact Entry.settles_cutOff _ (clock requestId)
  | finishShutdown => exact Entry.settles_of_gone rfl
  | _ => exact Entry.settles_refl _

theorem agrees_onEntry (shape : Shape config state.coordinator)
    {requestId : String}
    (agrees : (state.coordinator.entry requestId).Agrees)
    (call : CoordinatorCall)
    (active : UpdatesToActive call state) :
    (call.onEntry state requestId
      (state.coordinator.entry requestId)).Agrees := by
  cases call with
  | register teamId timeoutSeconds timestamp now registeredAt =>
      simp only [onEntry]
      split_ifs with accepted
      · have fresh := shape.next_fresh timestamp
        rw [← accepted.2] at fresh
        exact (shape.proper requestId).agrees_registered fresh rfl rfl
      · exact agrees
  | takeResult caller =>
      simp only [onEntry]
      split_ifs
      · exact agrees.taken
      · exact agrees
  | giveUp caller =>
      simp only [onEntry]
      split_ifs
      · exact agrees.givenUp
      · exact agrees
  | notify notified response orderId now =>
      simp only [onEntry]
      split_ifs
      · exact agrees.notified response orderId now
      · exact agrees
  | updateStatus updated status stageDetails =>
      simp only [onEntry]
      split_ifs with same
      · subst same
        apply (agrees.updated_iff status stageDetails).mpr
        rw [live_entry]
        exact active
      · exact agrees
  | cleanup clock => exact agrees.cleaned state.coordinator.config clock
  | beginShutdown clock => exact agrees.cutOff (clock requestId)
  | finishShutdown => exact Entry.agrees_of_not_pending rfl
  | _ => exact agrees

end CoordinatorCall

theorem coherent_iff_agrees {state : ResponseSystem} :
    Coherent state ↔
      ∀ requestId, (state.coordinator.entry requestId).Agrees := by
  have result : ∀ requestId,
      state.coordinator.completionResults.Contains requestId ↔
        (state.coordinator.entry requestId).result.isSome = true := by
    intro requestId
    have exists_iff :=
      state.coordinator.completionResults.contains_iff_exists requestId
    rw [Option.isSome_iff_exists]
    exact exists_iff
  constructor
  · intro coherent requestId request live
    rw [live_entry, pendingRequest?] at live
    by_cases pending : requestId ∈ state.coordinator.pendingRequests
    · rw [if_pos pending] at live
      have agreement := coherent requestId pending request live
      rw [result] at agreement
      exact
        ⟨Bool.eq_iff_iff.mpr agreement.1,
          Bool.eq_iff_iff.mpr agreement.2⟩
    · rw [if_neg pending] at live
      simp at live
  · intro agrees requestId pending request stored
    have live :
        request ∈ (state.coordinator.entry requestId).live := by
      rw [live_entry, pendingRequest?, if_pos pending]
      exact stored
    have agreement := agrees requestId request live
    rw [result]
    exact
      ⟨Bool.eq_iff_iff.mp agreement.1, Bool.eq_iff_iff.mp agreement.2⟩

theorem settled_execute {config : CoordinationConfig}
    {state : ResponseSystem}
    (shape : Shape config state.coordinator)
    (call : CoordinatorCall) :
    Settled state (call.execute state) := by
  intro requestId pending request stored terminal still
  have settles := CoordinatorCall.settles_onEntry shape call requestId
  rw [← CoordinatorCall.entry_execute shape] at settles
  apply settles request _ terminal (decide_eq_true still)
  rw [live_entry, pendingRequest?, if_pos pending]
  exact stored

theorem coherent_start (config : CoordinationConfig) :
    Coherent (.start config) := by
  intro requestId pending
  exact absurd pending List.not_mem_nil

theorem coherent_execute {config : CoordinationConfig}
    {state : ResponseSystem} {call : CoordinatorCall}
    (shape : Shape config state.coordinator)
    (coherent : Coherent state)
    (active : UpdatesToActive call state) :
    Coherent (call.execute state) := by
  rw [coherent_iff_agrees] at coherent ⊢
  intro requestId
  rw [CoordinatorCall.entry_execute shape]
  exact
    CoordinatorCall.agrees_onEntry shape (coherent requestId) call active

theorem not_coherent_execute {config : CoordinationConfig}
    {state : ResponseSystem} {call : CoordinatorCall}
    (shape : Shape config state.coordinator)
    (coherent : Coherent state)
    (terminal : ¬ UpdatesToActive call state) :
    ¬ Coherent (call.execute state) := by
  cases call with
  | updateStatus requestId status stageDetails =>
      intro still
      apply terminal
      rw [coherent_iff_agrees] at coherent still
      have agrees := still requestId
      rw [CoordinatorCall.entry_execute shape] at agrees
      simp only [CoordinatorCall.onEntry, if_true] at agrees
      rw [(coherent requestId).updated_iff, live_entry] at agrees
      exact agrees
  | _ => exact absurd trivial terminal

/--
Status, event and result agree in every state, and a terminal status stays
with its result until the request is removed, exactly when no status update
gives an active request a terminal status.
-/
theorem coherent_iff {config : CoordinationConfig}
    {labels : List CoordinatorCall} {finish : ResponseSystem}
    (run : Run CoordinatorStep (.start config) labels finish) :
    (Throughout CoordinatorStep (.start config) labels Coherent ∧
        Throughout CoordinatorStep (.start config) labels fun state =>
          ∀ call next, CoordinatorStep state call next →
            Settled state next) ↔
      Permitted UpdatesToActive CoordinatorCall.execute
        (.start config) labels := by
  have coherent :=
    run.throughout_iff
      (fun state => Shape config state.coordinator) Coherent
      (Shape.new config)
      (fun _ call shape _ => CoordinatorCall.shape_execute shape call)
      (coherent_start config)
      (fun _ _ shape coherent _ active =>
        coherent_execute shape coherent active)
      (fun _ _ shape coherent _ terminal =>
        not_coherent_execute shape coherent terminal)
  rw [coherent]
  constructor
  · rintro ⟨permitted, _⟩
    exact permitted
  · intro permitted
    refine ⟨permitted, ?_⟩
    rintro before after state _ reached call next ⟨_, rfl⟩
    exact settled_execute (Shape.of_run reached) call

namespace Sample

/-- A status update gives a request a terminal status. -/
def terminalUpdate : List CoordinatorCall :=
  [.register "TEAM" none 7 0 0,
    .updateStatus "req_7_000001" .completed none]

end Sample

theorem coherent_answered :
    (Throughout CoordinatorStep (.start {}) Sample.answeredCalls
        Coherent ∧
      Throughout CoordinatorStep (.start {}) Sample.answeredCalls
        fun state =>
          ∀ call next, CoordinatorStep state call next →
            Settled state next) :=
  (coherent_iff
    (run_replay
      (show
        Permitted CoordinatorCall.Allowed CoordinatorCall.execute
          (.start {}) Sample.answeredCalls by
        decide +kernel))).mpr
    (by decide +kernel)

/-- A status update to a terminal status sets no event. -/
theorem terminalUpdate_incoherent :
    ¬ ∀ (config : CoordinationConfig) (labels : List CoordinatorCall)
        (finish : ResponseSystem),
      Run CoordinatorStep (.start config) labels finish →
        Coherent finish := by
  intro coherent
  have run :
      Run CoordinatorStep (.start {}) Sample.terminalUpdate
        (replay CoordinatorCall.execute (.start {})
          Sample.terminalUpdate) :=
    run_replay (by decide +kernel)
  obtain ⟨request, stored, terminal, unset⟩ :
      ∃ request ∈ (replay CoordinatorCall.execute (.start {})
          Sample.terminalUpdate).coordinator.requests.get?
            "req_7_000001",
        request.status.isTerminal = true ∧
          request.completionEvent = false := by
    decide +kernel
  have agreement :=
    coherent {} Sample.terminalUpdate _ run "req_7_000001"
      (by decide +kernel) request stored
  rw [agreement.1.mp terminal] at unset
  exact absurd unset (by decide)

end InternTradingGame
