import InternTradingGame.Library.Sequences
import InternTradingGame.Response.Coordinator

/-!
# What the coordinator holds about one request

Every operation of the coordinator works on single requests.  The entry of a
request id is what the two dictionaries hold under it, together with the
request object; the coordinator behaves as an independent machine for each
id.  `entry_execute` says so for every step, and the properties of the
coordinator are then invariants of one entry.
-/

namespace InternTradingGame

open Effects Sequences

/-- What the coordinator holds under one request id. -/
structure Entry where
  request : Option PendingRequest
  pending : Bool
  result : Option ResponseResult

/-- The entry of a request id. -/
def Coordinator.entry (state : Coordinator) (requestId : String) :
    Entry where
  request := state.requests.get? requestId
  pending := decide (requestId ∈ state.pendingRequests)
  result := state.completionResults.get? requestId

namespace Entry

/-- The request, if it is in the dictionary of pending requests. -/
def live (entry : Entry) : Option PendingRequest :=
  if entry.pending then entry.request else none

/-- A new request object enters the dictionary. -/
def registered (request : PendingRequest) (entry : Entry) : Entry :=
  { entry with
    request := some request
    pending := true }

/--
What a notification does to the entry: only a request which has not ended is
completed.
-/
def notified (requestId : String) (response : ApiResponse)
    (orderId : Option String) (now : ℚ) (entry : Entry) : Entry :=
  match entry.live with
  | none => entry
  | some request =>
      if request.status.isTerminal then
        entry
      else
        { entry with
          request :=
            some
              { request with
                status := response.finalStatus
                orderId := orderId
                completionEvent := true }
          result :=
            some
              (Coordinator.notificationResult request requestId response
                orderId now) }

/--
What a change of status does to the entry: a request which has ended keeps
its status.
-/
def updated (status : ResponseStatus)
    (stageDetails : Option StageDetails) (entry : Entry) : Entry :=
  match entry.live with
  | none => entry
  | some request =>
      if request.status.isTerminal then
        entry
      else
        { entry with
          request :=
            some ({ request with status := status }.updateStage
              stageDetails) }

/-- The request object after a cleanup which found it expired. -/
def handled (request : PendingRequest) : PendingRequest :=
  if request.status = .timeout then
    request
  else
    { request with
      status := .timeout
      completionEvent := true }

/-- A cleanup removes the request. -/
def Removable (config : CoordinationConfig)
    (clock : Coordinator.CleanupClock) (requestId : String)
    (entry : Entry) : Prop :=
  ∃ request ∈ entry.live,
    request.isExpired (clock.checkedAt requestId) ∨
      Coordinator.ShouldCleanCompleted config request clock.currentTime

instance (config : CoordinationConfig)
    (clock : Coordinator.CleanupClock) (requestId : String)
    (entry : Entry) :
    Decidable (Removable config clock requestId entry) :=
  inferInstanceAs (Decidable (∃ request ∈ _, _ ∨ _))

/-- The request object after a cleanup. -/
def afterCleanup (clock : Coordinator.CleanupClock) (requestId : String)
    (request : PendingRequest) : PendingRequest :=
  if request.isExpired (clock.checkedAt requestId) then
    handled request
  else
    request

/--
What a cleanup does to the entry: an entry which is due goes, with its
result.
-/
def cleaned (config : CoordinationConfig)
    (clock : Coordinator.CleanupClock) (requestId : String)
    (entry : Entry) : Entry :=
  if Removable config clock requestId entry then
    { request := entry.request.map (afterCleanup clock requestId)
      pending := false
      result := none }
  else
    entry

/--
What a shutdown does to the entry: a request which has not ended is ended
with an error.
-/
def cutOff (now : ℚ) (entry : Entry) : Entry :=
  match entry.live with
  | none => entry
  | some request =>
      if request.status.isTerminal then
        entry
      else
        { entry with
          request :=
            some
              { request with
                status := .error
                completionEvent := true }
          result := some (Coordinator.shutdownResult request now) }

/-- Request and result are removed. -/
def removed (entry : Entry) : Entry :=
  { entry with
    pending := false
    result := none }

/-- The result is taken, if there is one and the request is pending. -/
def taken (entry : Entry) : Entry :=
  if entry.pending = true ∧ entry.result.isSome = true then
    entry.removed
  else
    entry

/-- What a caller does to its entry when its time is up. -/
def givenUp (entry : Entry) : Entry :=
  match entry.live with
  | none => entry
  | some request =>
      { entry with
        request := some { request with status := .timeout }
        pending := false }

/-! ## Well-formed entries -/

/-- The object and the result are kept under their own id. -/
structure Proper (requestId : String) (entry : Entry) : Prop where
  known : entry.pending = true → ∃ request, entry.request = some request
  request : ∀ request ∈ entry.request, request.requestId = requestId
  result : ∀ result ∈ entry.result, result.requestId = requestId
  answered : entry.request = none → entry.result = none

variable {requestId : String} {entry : Entry}

theorem live_eq_some_iff {request : PendingRequest} :
    entry.live = some request ↔
      entry.pending = true ∧ entry.request = some request := by
  unfold live
  cases entry.pending <;> simp

theorem live_eq_none_of_not_pending (gone : entry.pending = false) :
    entry.live = none := by
  simp [live, gone]

namespace Proper

theorem live_isSome (proper : entry.Proper requestId)
    (pending : entry.pending = true) :
    ∃ request, entry.live = some request := by
  rcases proper.known pending with ⟨request, stored⟩
  exact ⟨request, live_eq_some_iff.mpr ⟨pending, stored⟩⟩

theorem registered (proper : entry.Proper requestId)
    {request : PendingRequest}
    (named : request.requestId = requestId) :
    (entry.registered request).Proper requestId where
  known _ := ⟨request, rfl⟩
  request := by
    intro stored member
    obtain rfl : request = stored := by
      simpa [Entry.registered] using member
    exact named
  result := proper.result
  answered absent := by simp [Entry.registered] at absent

theorem notified (proper : entry.Proper requestId)
    (response : ApiResponse) (orderId : Option String) (now : ℚ) :
    (entry.notified requestId response orderId now).Proper
      requestId := by
  unfold Entry.notified
  cases live : entry.live with
  | none => exact proper
  | some request =>
      have stored := (live_eq_some_iff.mp live).2
      by_cases terminal : request.status.isTerminal = true
      · simpa [terminal] using proper
      · simp only [terminal, Bool.false_eq_true, ↓reduceIte]
        constructor
        · intro _
          exact ⟨_, rfl⟩
        · intro changed member
          have named := proper.request request stored
          simp only [Option.mem_some_iff] at member
          rw [← member]
          exact named
        · intro result member
          simp only [Option.mem_some_iff] at member
          rw [← member]
          rfl
        · intro absent
          simp at absent

theorem updateStage_requestId (request : PendingRequest)
    (stageDetails : Option StageDetails) :
    (request.updateStage stageDetails).requestId =
      request.requestId := by
  cases stageDetails with
  | none => rfl
  | some details =>
      unfold PendingRequest.updateStage
      apply foldl_invariant PendingRequest.addMetric
        (fun changed => changed.requestId = request.requestId)
      · intro changed detail _ same
        unfold PendingRequest.addMetric
        split_ifs
        · exact same
        · exact same
      · rfl

theorem updated (proper : entry.Proper requestId)
    (status : ResponseStatus) (stageDetails : Option StageDetails) :
    (entry.updated status stageDetails).Proper requestId := by
  unfold Entry.updated
  cases live : entry.live with
  | none => exact proper
  | some request =>
      have stored := (live_eq_some_iff.mp live).2
      by_cases terminal : request.status.isTerminal = true
      · simpa [terminal] using proper
      · simp only [terminal, Bool.false_eq_true, ↓reduceIte]
        constructor
        · intro _
          exact ⟨_, rfl⟩
        · intro changed member
          have named := proper.request request stored
          simp only [Option.mem_some_iff] at member
          rw [← member, updateStage_requestId]
          exact named
        · exact proper.result
        · intro absent
          simp at absent

theorem afterCleanup_requestId (clock : Coordinator.CleanupClock)
    (request : PendingRequest) :
    (afterCleanup clock requestId request).requestId =
      request.requestId := by
  unfold afterCleanup handled
  split_ifs <;> rfl

theorem cleaned (proper : entry.Proper requestId)
    (config : CoordinationConfig) (clock : Coordinator.CleanupClock) :
    (entry.cleaned config clock requestId).Proper requestId := by
  unfold Entry.cleaned
  by_cases removable : Removable config clock requestId entry
  · rw [if_pos removable]
    constructor
    · intro pending
      simp at pending
    · intro changed member
      rcases Option.mem_map.mp member with ⟨request, stored, rfl⟩
      rw [afterCleanup_requestId]
      exact proper.request request stored
    · intro result member
      simp at member
    · intro _
      rfl
  · rw [if_neg removable]
    exact proper

theorem cutOff (proper : entry.Proper requestId) (now : ℚ) :
    (entry.cutOff now).Proper requestId := by
  unfold Entry.cutOff
  cases live : entry.live with
  | none => exact proper
  | some request =>
      have named :=
        proper.request request (live_eq_some_iff.mp live).2
      by_cases terminal : request.status.isTerminal = true
      · simpa [terminal] using proper
      · simp only [terminal, Bool.false_eq_true, ↓reduceIte]
        constructor
        · intro _
          exact ⟨_, rfl⟩
        · intro changed member
          simp only [Option.mem_some_iff] at member
          rw [← member]
          exact named
        · intro result member
          simp only [Option.mem_some_iff] at member
          rw [← member]
          exact named
        · intro absent
          simp at absent

theorem removed (proper : entry.Proper requestId) :
    entry.removed.Proper requestId where
  known pending := by simp [Entry.removed] at pending
  request := proper.request
  result := by
    intro result member
    simp [Entry.removed] at member
  answered _ := rfl

theorem taken (proper : entry.Proper requestId) :
    entry.taken.Proper requestId := by
  unfold Entry.taken
  split_ifs
  · exact proper.removed
  · exact proper

theorem givenUp (proper : entry.Proper requestId) :
    entry.givenUp.Proper requestId := by
  unfold Entry.givenUp
  cases live : entry.live with
  | none => exact proper
  | some request =>
      have named :=
        proper.request request (live_eq_some_iff.mp live).2
      constructor
      · intro pending
        simp at pending
      · intro changed member
        simp only [Option.mem_some_iff] at member
        rw [← member]
        exact named
      · exact proper.result
      · intro absent
        simp at absent

end Proper

end Entry

namespace Coordinator

theorem live_entry (state : Coordinator) (requestId : String) :
    (state.entry requestId).live = state.pendingRequest? requestId := by
  unfold Entry.live pendingRequest? entry
  simp

@[simp]
theorem entry_new (config : CoordinationConfig) (requestId : String) :
    (Coordinator.new config).entry requestId =
      { request := none, pending := false, result := none } := by
  simp [entry, Coordinator.new]

/-! ## The operations on entries -/

theorem entry_notifyCompletion (state : Coordinator)
    (requestId other : String) (response : ApiResponse)
    (orderId : Option String) (now : ℚ) :
    (state.notifyCompletion requestId response orderId now).2.entry
        other =
      if other = requestId then
        (state.entry requestId).notified requestId response orderId now
      else
        state.entry other := by
  unfold notifyCompletion Entry.notified
  rw [live_entry]
  cases live : state.pendingRequest? requestId with
  | none =>
      by_cases same : other = requestId
      · subst same
        simp
      · simp [same]
  | some request =>
      by_cases terminal : request.status.isTerminal = true
      · by_cases same : other = requestId
        · subst same
          simp [terminal]
        · simp [terminal, same]
      · by_cases same : other = requestId
        · subst same
          simp [terminal, entry, notificationResult]
        · simp [terminal, same, entry, OrderedDict.get?_set]

theorem notifyCompletion_returned (state : Coordinator)
    (requestId : String) (response : ApiResponse)
    (orderId : Option String) (now : ℚ) :
    (state.notifyCompletion requestId response orderId now).1 =
      (state.entry requestId).live.isSome := by
  unfold notifyCompletion
  rw [live_entry]
  cases state.pendingRequest? requestId with
  | none => rfl
  | some request =>
      by_cases terminal : request.status.isTerminal = true
      · simp [terminal]
      · simp [terminal]

theorem entry_updateStatus (state : Coordinator)
    (requestId other : String) (status : ResponseStatus)
    (stageDetails : Option StageDetails) :
    (state.updateStatus requestId status stageDetails).2.entry other =
      if other = requestId then
        (state.entry requestId).updated status stageDetails
      else
        state.entry other := by
  unfold updateStatus Entry.updated
  rw [live_entry]
  cases live : state.pendingRequest? requestId with
  | none =>
      by_cases same : other = requestId
      · subst same
        simp
      · simp [same]
  | some request =>
      by_cases terminal : request.status.isTerminal = true
      · by_cases same : other = requestId
        · subst same
          simp [terminal]
        · simp [terminal, same]
      · by_cases same : other = requestId
        · subst same
          simp [terminal, entry]
        · simp [terminal, same, entry, OrderedDict.get?_set]

theorem entry_giveUp (state : Coordinator)
    (distinct : state.pendingRequests.Nodup)
    (requestId other : String) :
    (state.giveUp requestId).entry other =
      if other = requestId then (state.entry requestId).givenUp
      else state.entry other := by
  unfold giveUp Entry.givenUp
  rw [live_entry]
  cases live : state.pendingRequest? requestId with
  | none =>
      by_cases same : other = requestId
      · subst same
        simp
      · simp [same]
  | some request =>
      by_cases same : other = requestId
      · subst same
        simp [entry, distinct.mem_erase_iff]
      · simp [same, entry, OrderedDict.get?_set,
          distinct.mem_erase_iff]

theorem entry_removeRequest (state : Coordinator)
    (distinct : state.pendingRequests.Nodup)
    (requestId other : String) :
    (state.removeRequest requestId).entry other =
      if other = requestId then (state.entry requestId).removed
      else state.entry other := by
  by_cases same : other = requestId
  · subst same
    simp [removeRequest, Entry.removed, entry, distinct.mem_erase_iff,
      OrderedDict.get?_erase]
  · simp [removeRequest, same, entry, distinct.mem_erase_iff,
      OrderedDict.get?_erase]

theorem entry_finishShutdown (state : Coordinator)
    (requestId : String) :
    state.finishShutdown.entry requestId =
      (state.entry requestId).removed := by
  simp [finishShutdown, Entry.removed, entry]

/-! ## Cleanup -/

section Cleanup

variable (clock : CleanupClock)

/-- A cleanup which looks at the request decides to remove it. -/
def Inspects (state : Coordinator) (requestId : String) : Prop :=
  ∃ request ∈ state.requests.get? requestId,
    request.isExpired (clock.checkedAt requestId) ∨
      ShouldCleanCompleted state.config request clock.currentTime

instance (state : Coordinator) (requestId : String) :
    Decidable (Inspects clock state requestId) :=
  inferInstanceAs (Decidable (∃ request ∈ _, _ ∨ _))

/-- What the loop leaves of the request it looks at. -/
def afterInspection (requestId : String) (entry : Entry) : Entry :=
  match entry.request with
  | none => entry
  | some request =>
      if request.isExpired (clock.checkedAt requestId) then
        { entry with
          request := some (Entry.handled request)
          result :=
            if request.status = .timeout then
              entry.result
            else
              some
                (createTimeoutResponse { request with status := .timeout }
                  (clock.respondedAt requestId)) }
      else
        entry

theorem not_inspects_of_absent {state : Coordinator}
    {requestId : String}
    (absent : state.requests.get? requestId = none) :
    ¬ Inspects clock state requestId := by
  rintro ⟨request, stored, _⟩
  rw [absent] at stored
  simp at stored

theorem inspects_iff {state : Coordinator} {requestId : String}
    {request : PendingRequest}
    (stored : state.requests.get? requestId = some request) :
    Inspects clock state requestId ↔
      request.isExpired (clock.checkedAt requestId) ∨
        ShouldCleanCompleted state.config request clock.currentTime := by
  unfold Inspects
  rw [stored]
  simp

theorem inspectRequest_list (progress : List String × Coordinator)
    (requestId : String) :
    (inspectRequest clock progress requestId).1 =
      if Inspects clock progress.2 requestId then
        progress.1 ++ [requestId]
      else
        progress.1 := by
  unfold inspectRequest
  cases found : progress.2.requests.get? requestId with
  | none =>
      rw [if_neg (not_inspects_of_absent clock found)]
  | some request =>
      simp only [inspects_iff clock found]
      by_cases expired : request.isExpired (clock.checkedAt requestId)
      · simp [expired]
      · by_cases old :
            ShouldCleanCompleted progress.2.config request
              clock.currentTime
        · simp [expired, old]
        · simp [expired, old]

theorem entry_inspectRequest (progress : List String × Coordinator)
    (requestId other : String) :
    (inspectRequest clock progress requestId).2.entry other =
      if other = requestId then
        afterInspection clock requestId (progress.2.entry requestId)
      else
        progress.2.entry other := by
  unfold inspectRequest afterInspection
  have stored :
      (progress.2.entry requestId).request =
        progress.2.requests.get? requestId := rfl
  rw [stored]
  cases found : progress.2.requests.get? requestId with
  | none =>
      by_cases same : other = requestId
      · subst same
        simp
      · simp [same]
  | some request =>
      by_cases expired : request.isExpired (clock.checkedAt requestId)
      · by_cases already : request.status = .timeout
        · by_cases same : other = requestId
          · subst same
            simp [expired, already, handleExpiredRequest, entry,
              Entry.handled, found]
          · simp [expired, already, handleExpiredRequest, same]
        · by_cases same : other = requestId
          · subst same
            simp [expired, already, handleExpiredRequest, entry,
              Entry.handled]
          · simp [expired, already, handleExpiredRequest, same, entry,
              OrderedDict.get?_set]
      · have unchanged :
            ∀ choice : Prop, ∀ _ : Decidable choice,
              (if choice then (progress.1 ++ [requestId], progress.2)
                else progress).2 = progress.2 := by
          intro choice _
          split_ifs <;> rfl
        by_cases same : other = requestId
        · subst same
          simp [expired, unchanged]
        · simp [expired, same, unchanged]

theorem inspectRequest_frame (progress : List String × Coordinator)
    (requestId : String) :
    (inspectRequest clock progress requestId).2.config =
        progress.2.config ∧
      (inspectRequest clock progress requestId).2.pendingRequests =
          progress.2.pendingRequests ∧
        (inspectRequest clock progress requestId).2.requestCounter =
          progress.2.requestCounter ∧
          (inspectRequest clock progress requestId).2.shutdown =
            progress.2.shutdown := by
  unfold inspectRequest handleExpiredRequest
  cases progress.2.requests.get? requestId with
  | none => simp
  | some request =>
      dsimp only
      split_ifs <;> exact ⟨rfl, rfl, rfl, rfl⟩

theorem inspects_inspectRequest_of_ne
    {progress : List String × Coordinator} {requestId other : String}
    (different : other ≠ requestId) :
    Inspects clock (inspectRequest clock progress requestId).2 other ↔
      Inspects clock progress.2 other := by
  have same := entry_inspectRequest clock progress requestId other
  rw [if_neg different] at same
  have requests := congrArg Entry.request same
  have config := (inspectRequest_frame clock progress requestId).1
  simp only [entry] at requests
  simp only [Inspects, requests, config]

/-- The ids found by the loop. -/
theorem inspected_list {requestIds : List String}
    (distinct : requestIds.Nodup)
    (progress : List String × Coordinator) :
    (requestIds.foldl (inspectRequest clock) progress).1 =
      progress.1 ++
        requestIds.filter
          fun requestId => Inspects clock progress.2 requestId := by
  induction requestIds generalizing progress with
  | nil => simp
  | cons first rest induction =>
      rcases List.nodup_cons.mp distinct with ⟨outside, distinctRest⟩
      have later :
          (rest.filter fun requestId =>
            Inspects clock (inspectRequest clock progress first).2
              requestId) =
            rest.filter fun requestId =>
              Inspects clock progress.2 requestId := by
        apply List.filter_congr
        intro requestId member
        have different : requestId ≠ first := by
          rintro rfl
          exact outside member
        rw [decide_eq_decide]
        exact inspects_inspectRequest_of_ne clock different
      rw [List.foldl_cons, induction distinctRest, later,
        inspectRequest_list]
      by_cases found : Inspects clock progress.2 first
      · simp [found]
      · simp [found]

theorem inspected_entry {requestIds : List String}
    (distinct : requestIds.Nodup)
    (progress : List String × Coordinator) (requestId : String) :
    (requestIds.foldl (inspectRequest clock) progress).2.entry
        requestId =
      if requestId ∈ requestIds then
        afterInspection clock requestId (progress.2.entry requestId)
      else
        progress.2.entry requestId := by
  apply foldl_pointwise
    (fun (progress : List String × Coordinator) requestId =>
      progress.2.entry requestId)
    (inspectRequest clock) (afterInspection clock) (fun _ => True)
  · intro _ _ _ _
    trivial
  · intro reached key _ _
    show (inspectRequest clock reached key).2.entry key = _
    rw [entry_inspectRequest, if_pos rfl]
  · intro reached key _ other _ different
    show (inspectRequest clock reached key).2.entry other = _
    rw [entry_inspectRequest, if_neg different]
  · exact distinct
  · trivial

theorem inspected_frame (requestIds : List String)
    (progress : List String × Coordinator) :
    (requestIds.foldl (inspectRequest clock) progress).2.config =
        progress.2.config ∧
      (requestIds.foldl (inspectRequest clock)
          progress).2.pendingRequests = progress.2.pendingRequests ∧
        (requestIds.foldl (inspectRequest clock)
            progress).2.requestCounter = progress.2.requestCounter ∧
          (requestIds.foldl (inspectRequest clock)
            progress).2.shutdown = progress.2.shutdown := by
  apply foldl_invariant (inspectRequest clock)
    (fun reached : List String × Coordinator =>
      reached.2.config = progress.2.config ∧
        reached.2.pendingRequests = progress.2.pendingRequests ∧
          reached.2.requestCounter = progress.2.requestCounter ∧
            reached.2.shutdown = progress.2.shutdown)
  · rintro reached requestId _ ⟨config, pending, counter, shutdown⟩
    have frame := inspectRequest_frame clock reached requestId
    exact
      ⟨frame.1.trans config, frame.2.1.trans pending,
        frame.2.2.1.trans counter, frame.2.2.2.trans shutdown⟩
  · exact ⟨rfl, rfl, rfl, rfl⟩

/-- The removal loop removes the requests it is given. -/
theorem removed_entry {requestIds : List String}
    (distinct : requestIds.Nodup)
    {state : Coordinator}
    (distinctPending : state.pendingRequests.Nodup)
    (requestId : String) :
    (requestIds.foldl removeRequest state).entry requestId =
      if requestId ∈ requestIds then
        (state.entry requestId).removed
      else
        state.entry requestId := by
  apply foldl_pointwise entry removeRequest
    (fun _ => Entry.removed) (fun state => state.pendingRequests.Nodup)
  · intro reached key _ nodup
    exact nodup.erase key
  · intro reached key _ nodup
    rw [entry_removeRequest reached nodup, if_pos rfl]
  · intro reached key _ other nodup different
    rw [entry_removeRequest reached nodup, if_neg different]
  · exact distinct
  · exact distinctPending

/-- Only the requests and the results of pending ids are touched. -/
structure Shrinks (before after : Coordinator) : Prop where
  config : after.config = before.config
  counter : after.requestCounter = before.requestCounter
  pending : after.pendingRequests.Sublist before.pendingRequests

theorem Shrinks.refl (state : Coordinator) : Shrinks state state where
  config := rfl
  counter := rfl
  pending := List.Sublist.refl _

theorem removed_shrinks (requestIds : List String)
    (state : Coordinator) :
    Shrinks state (requestIds.foldl removeRequest state) := by
  apply foldl_invariant removeRequest (Shrinks state)
  · intro reached key _ shrinks
    constructor
    · exact shrinks.config
    · exact shrinks.counter
    · exact List.erase_sublist.trans shrinks.pending
  · exact Shrinks.refl state

theorem cleanup_shrinks (state : Coordinator) :
    Shrinks state (state.cleanupCompletedRequests clock).2 := by
  have frame := inspected_frame clock state.pendingRequests ([], state)
  have removal :=
    removed_shrinks
      (state.pendingRequests.foldl (inspectRequest clock) ([], state)).1
      (state.pendingRequests.foldl (inspectRequest clock) ([], state)).2
  constructor
  · exact removal.config.trans frame.1
  · exact removal.counter.trans frame.2.2.1
  · exact frame.2.1 ▸ removal.pending

theorem inspects_iff_removable {state : Coordinator}
    {requestId : String}
    (pending : requestId ∈ state.pendingRequests) :
    Inspects clock state requestId ↔
      Entry.Removable state.config clock requestId
        (state.entry requestId) := by
  unfold Inspects Entry.Removable
  rw [live_entry, pendingRequest?, if_pos pending]

theorem not_removable_of_not_pending {state : Coordinator}
    {requestId : String}
    (gone : requestId ∉ state.pendingRequests) :
    ¬ Entry.Removable state.config clock requestId
      (state.entry requestId) := by
  rintro ⟨request, live, _⟩
  rw [live_entry, pendingRequest?, if_neg gone] at live
  simp at live

theorem entry_cleanup {state : Coordinator}
    (distinct : state.pendingRequests.Nodup) (requestId : String) :
    (state.cleanupCompletedRequests clock).2.entry requestId =
      (state.entry requestId).cleaned state.config clock requestId := by
  have found := inspected_list clock distinct ([], state)
  have frame := inspected_frame clock state.pendingRequests ([], state)
  have distinctFound :
      (state.pendingRequests.foldl (inspectRequest clock)
        ([], state)).1.Nodup := by
    rw [found]
    exact distinct.filter _
  show
    (List.foldl removeRequest
      (state.pendingRequests.foldl (inspectRequest clock) ([], state)).2
      (state.pendingRequests.foldl (inspectRequest clock)
        ([], state)).1).entry requestId = _
  have distinctInspected :
      (state.pendingRequests.foldl (inspectRequest clock)
        ([], state)).2.pendingRequests.Nodup := by
    rw [frame.2.1]
    exact distinct
  rw [removed_entry distinctFound distinctInspected, found,
    inspected_entry clock distinct]
  unfold Entry.cleaned
  by_cases pending : requestId ∈ state.pendingRequests
  · by_cases inspects : Inspects clock state requestId
    · have removable := (inspects_iff_removable clock pending).mp inspects
      rcases inspects with ⟨request, stored, _⟩
      have member :
          requestId ∈
            state.pendingRequests.filter fun requestId =>
              Inspects clock state requestId := by
        rw [List.mem_filter]
        exact ⟨pending, decide_eq_true ⟨request, stored, ‹_›⟩⟩
      have entryRequest :
          (state.entry requestId).request = some request := stored
      rw [if_pos removable, List.nil_append, if_pos member,
        if_pos pending]
      unfold afterInspection Entry.removed Entry.afterCleanup
      rw [entryRequest]
      by_cases expired : request.isExpired (clock.checkedAt requestId)
      · simp [expired]
      · simp [expired, entryRequest]
    · have kept := mt (inspects_iff_removable clock pending).mpr inspects
      have outside :
          requestId ∉
            state.pendingRequests.filter fun requestId =>
              Inspects clock state requestId := by
        rw [List.mem_filter]
        rintro ⟨_, decided⟩
        exact inspects (of_decide_eq_true decided)
      rw [if_neg kept, List.nil_append, if_neg outside, if_pos pending]
      unfold afterInspection
      cases stored : (state.entry requestId).request with
      | none => rfl
      | some request =>
          have unexpired :
              ¬ request.isExpired (clock.checkedAt requestId) := by
            intro expired
            exact inspects ⟨request, stored, Or.inl expired⟩
          simp [unexpired]
  · have outside :
        requestId ∉
          state.pendingRequests.filter fun requestId =>
            Inspects clock state requestId := by
      rw [List.mem_filter]
      rintro ⟨member, _⟩
      exact pending member
    rw [if_neg (not_removable_of_not_pending clock pending),
      List.nil_append, if_neg outside, if_neg pending]

end Cleanup

/-! ## Shutdown -/

theorem entry_cutOff {state : Coordinator}
    (proper : ∀ requestId, (state.entry requestId).Proper requestId)
    (clock : String → ℚ) (requestId other : String)
    (pending : requestId ∈ state.pendingRequests) :
    (state.cutOff clock requestId).entry other =
      if other = requestId then
        (state.entry requestId).cutOff (clock requestId)
      else
        state.entry other := by
  have live :
      (state.entry requestId).live =
        state.requests.get? requestId := by
    rw [live_entry, pendingRequest?, if_pos pending]
  unfold Coordinator.cutOff Entry.cutOff
  rw [live]
  cases found : state.requests.get? requestId with
  | none =>
      by_cases same : other = requestId
      · subst same
        simp
      · simp [same]
  | some request =>
      have named : request.requestId = requestId :=
        (proper requestId).request request found
      by_cases terminal : request.status.isTerminal = true
      · by_cases same : other = requestId
        · subst same
          simp [terminal]
        · simp [terminal, same]
      · by_cases same : other = requestId
        · subst same
          simp [terminal, entry, named]
        · simp [terminal, same, entry, OrderedDict.get?_set, named]

theorem cutOff_shrinks (state : Coordinator) (clock : String → ℚ)
    (requestId : String) :
    (state.cutOff clock requestId).config = state.config ∧
      (state.cutOff clock requestId).requestCounter =
          state.requestCounter ∧
        (state.cutOff clock requestId).pendingRequests =
          state.pendingRequests := by
  unfold Coordinator.cutOff
  cases state.requests.get? requestId with
  | none => exact ⟨rfl, rfl, rfl⟩
  | some request =>
      dsimp only
      split_ifs <;> exact ⟨rfl, rfl, rfl⟩

/-- The loop over the pending requests has not changed their ids. -/
structure CuttingOff (start state : Coordinator) : Prop where
  config : state.config = start.config
  counter : state.requestCounter = start.requestCounter
  pending : state.pendingRequests = start.pendingRequests
  proper : ∀ requestId, (state.entry requestId).Proper requestId

theorem CuttingOff.round {start state : Coordinator}
    (clock : String → ℚ)
    (reached : CuttingOff start state)
    {requestId : String}
    (member : requestId ∈ start.pendingRequests) :
    CuttingOff start (state.cutOff clock requestId) := by
  have frame := cutOff_shrinks state clock requestId
  constructor
  · exact frame.1.trans reached.config
  · exact frame.2.1.trans reached.counter
  · exact frame.2.2.trans reached.pending
  · intro other
    rw [entry_cutOff reached.proper clock requestId other
      (reached.pending ▸ member)]
    by_cases same : other = requestId
    · subst same
      rw [if_pos rfl]
      exact (reached.proper other).cutOff (clock other)
    · rw [if_neg same]
      exact reached.proper other

theorem entry_beginShutdown {state : Coordinator}
    (distinct : state.pendingRequests.Nodup)
    (proper : ∀ requestId, (state.entry requestId).Proper requestId)
    (clock : String → ℚ) (requestId : String) :
    (state.beginShutdown clock).entry requestId =
      (state.entry requestId).cutOff (clock requestId) := by
  have initial :
      CuttingOff state { state with shutdown := true } :=
    ⟨rfl, rfl, rfl, proper⟩
  have pointwise :=
    foldl_pointwise entry (Coordinator.cutOff clock)
      (fun requestId => Entry.cutOff (clock requestId))
      (CuttingOff state)
      (fun reached key member cutting => cutting.round clock member)
      (fun reached key member cutting => by
        rw [entry_cutOff cutting.proper clock key key
          (cutting.pending ▸ member), if_pos rfl])
      (fun reached key member other cutting different => by
        rw [entry_cutOff cutting.proper clock key other
          (cutting.pending ▸ member), if_neg different])
      distinct initial requestId
  show
    (state.pendingRequests.foldl (Coordinator.cutOff clock)
      { state with shutdown := true }).entry requestId = _
  rw [pointwise]
  by_cases pending : requestId ∈ state.pendingRequests
  · rw [if_pos pending]
    rfl
  · rw [if_neg pending]
    have idle : (state.entry requestId).live = none := by
      rw [live_entry, pendingRequest?, if_neg pending]
    unfold Entry.cutOff
    rw [idle]
    rfl

theorem beginShutdown_shrinks {state : Coordinator}
    (proper : ∀ requestId, (state.entry requestId).Proper requestId)
    (clock : String → ℚ) :
    Shrinks state (state.beginShutdown clock) := by
  have cutting :=
    foldl_invariant (Coordinator.cutOff clock) (CuttingOff state)
      state.pendingRequests
      (fun reached key member cutting => cutting.round clock member)
      (show CuttingOff state { state with shutdown := true } from
        ⟨rfl, rfl, rfl, proper⟩)
  constructor
  · exact cutting.config
  · exact cutting.counter
  · exact cutting.pending ▸ List.Sublist.refl _

end Coordinator

end InternTradingGame
