import InternTradingGame.Core.Models
import InternTradingGame.Library.OrderedDict

/-!
# Responses and pending requests

What the response coordinator keeps for each request, and the responses it
passes from the threads of the exchange to the waiting API calls.  Clock
readings are seconds.
-/

namespace InternTradingGame

/-! ## Responses of the API -/

/-- A value in a dictionary of details. -/
inductive DetailValue where
  | number (value : ℚ)
  | text (value : String)
deriving DecidableEq, Repr

/--
The error of an answer: a code, a message and what else there is to know.
-/
structure ApiError where
  code : String
  message : String
  details : Option (List (String × DetailValue))
deriving DecidableEq, Repr

/--
The answer to a request, which carries the id of the request it answers.
-/
structure ApiResponse where
  success : Bool
  requestId : String
  orderId : Option String
  error : Option ApiError
deriving DecidableEq, Repr

/-! ## Statuses -/

/-- The statuses of a request; the last three are terminal. -/
inductive ResponseStatus where
  | pending
  | validating
  | matching
  | settling
  | completed
  | timeout
  | error
deriving DecidableEq, Repr

/-- `is_terminal`. -/
def ResponseStatus.isTerminal : ResponseStatus → Bool
  | .completed => true
  | .timeout => true
  | .error => true
  | _ => false

/-- The status a notification gives to a request. -/
def ApiResponse.finalStatus (response : ApiResponse) : ResponseStatus :=
  if response.success then .completed else .error

@[simp]
theorem ApiResponse.finalStatus_isTerminal (response : ApiResponse) :
    response.finalStatus.isTerminal = true := by
  unfold finalStatus
  cases response.success <;> rfl

theorem ApiResponse.finalStatus_ne_timeout (response : ApiResponse) :
    response.finalStatus ≠ .timeout := by
  unfold finalStatus
  cases response.success <;> simp

/-! ## Configuration -/

/-- The settings of the coordinator, with their defaults. -/
structure CoordinationConfig where
  defaultTimeoutSeconds : ℚ := 5
  maxPendingRequests : ℕ := 1000
  cleanupIntervalSeconds : ℤ := 30
  requestIdPrefix : String := "req"

/-! ## Requests -/

/-- The details of a processing stage. -/
abbrev StageDetails := OrderedDict String DetailValue

/--
What the coordinator knows of a request.  `completionEvent` says whether the
event of the request has been set.
-/
structure PendingRequest where
  requestId : String
  teamId : String
  status : ResponseStatus
  completionEvent : Bool
  registeredAt : ℚ
  timeoutAt : ℚ
  orderId : Option String := none
  currentStage : DetailValue := .text "registration"
  processingMetrics : OrderedDict String DetailValue := ∅

namespace PendingRequest

/-- `is_expired`, at the reading of the clock. -/
def isExpired (request : PendingRequest) (now : ℚ) : Prop :=
  request.timeoutAt ≤ now

instance (request : PendingRequest) (now : ℚ) :
    Decidable (request.isExpired now) :=
  inferInstanceAs (Decidable (request.timeoutAt ≤ now))

/-- `add_processing_metric`. -/
def addProcessingMetric (request : PendingRequest)
    (stage : String) (duration : DetailValue) : PendingRequest :=
  { request with
    processingMetrics := request.processingMetrics.set stage duration }

/-- A detail which is a duration is kept as a metric. -/
def addMetric (request : PendingRequest)
    (detail : String × DetailValue) : PendingRequest :=
  if detail.1.endsWith "_ms" ∨ detail.1.endsWith "_time" then
    request.addProcessingMetric detail.1 detail.2
  else
    request

/-- What a status update does with the details it is given. -/
def updateStage (request : PendingRequest) :
    Option StageDetails → PendingRequest
  | none => request
  | some details =>
      details.entries.foldl addMetric
        { request with
          currentStage :=
            (details.get? "stage").getD request.currentStage }

end PendingRequest

/-- What `register_request` returns. -/
structure ResponseRegistration where
  requestId : String
  teamId : String
  timeoutAt : ℚ
  status : ResponseStatus

/-- What `wait_for_completion` returns. -/
structure ResponseResult where
  requestId : String
  success : Bool
  apiResponse : ApiResponse
  processingTimeMs : ℚ
  finalStatus : ResponseStatus
  orderId : Option String := none
deriving DecidableEq

/-! ## Request ids -/

/-- The id of a request: the prefix, a timestamp and a padded number. -/
def formatRequestId (idPrefix : String) (timestamp counter : ℕ) : String :=
  idPrefix ++ "_" ++ toString timestamp ++ "_" ++
    String.ofList (List.leftpad 6 '0' (toString counter).toList)

/-- Reading padded digits gives the number back. -/
theorem ofDigitChars_leftpad (width counter : ℕ) :
    Nat.ofDigitChars 10
      (List.leftpad width '0' (Nat.toDigits 10 counter)) 0 = counter := by
  have zeros : ∀ count : ℕ,
      Nat.ofDigitChars 10 (List.replicate count '0') 0 = 0 := by
    intro count
    induction count with
    | zero => rfl
    | succ count induction =>
        rw [List.replicate_succ, Nat.ofDigitChars_cons]
        exact induction
  rw [List.leftpad, Nat.ofDigitChars_append, zeros]
  exact Nat.ofDigitChars_ten_toDigits

theorem underscore_not_mem_leftpad (width counter : ℕ) :
    '_' ∉ List.leftpad width '0' (Nat.toDigits 10 counter) := by
  simp [List.leftpad, Nat.underscore_not_in_toDigits]

/-- What follows the last separator is determined by the whole. -/
theorem suffix_unique {α : Type*} {separator : α}
    {left right leftSuffix rightSuffix : List α}
    (leftFree : separator ∉ leftSuffix)
    (rightFree : separator ∉ rightSuffix)
    (equal :
      left ++ separator :: leftSuffix =
        right ++ separator :: rightSuffix) :
    leftSuffix = rightSuffix := by
  rcases List.append_eq_append_iff.mp equal with
    ⟨between, _, tails⟩ | ⟨between, _, tails⟩
  · cases between with
    | nil => simpa using tails
    | cons head rest =>
        rw [List.cons_append, List.cons.injEq] at tails
        exact absurd (by simp [tails.2]) leftFree
  · cases between with
    | nil => simpa using tails.symm
    | cons head rest =>
        rw [List.cons_append, List.cons.injEq] at tails
        exact absurd (by simp [tails.2]) rightFree

/-- Requests with different numbers have different ids. -/
theorem formatRequestId_counter
    {leftPrefix rightPrefix : String}
    {leftTime rightTime leftCounter rightCounter : ℕ}
    (equal :
      formatRequestId leftPrefix leftTime leftCounter =
        formatRequestId rightPrefix rightTime rightCounter) :
    leftCounter = rightCounter := by
  have lists := congrArg String.toList equal
  have separator : "_".toList = ['_'] := rfl
  simp only [formatRequestId, String.toList_append,
    String.toList_ofList, Nat.toString_eq_ofList_toDigits, separator,
    ← List.append_cons] at lists
  have tails :
      List.leftpad 6 '0' (Nat.toDigits 10 leftCounter) =
        List.leftpad 6 '0' (Nat.toDigits 10 rightCounter) := by
    apply suffix_unique (underscore_not_mem_leftpad 6 leftCounter)
      (underscore_not_mem_leftpad 6 rightCounter)
    exact lists
  have counters := congrArg (Nat.ofDigitChars 10 · 0) tails
  simpa only [ofDigitChars_leftpad] using counters

end InternTradingGame
