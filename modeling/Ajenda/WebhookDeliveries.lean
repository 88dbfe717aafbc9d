import Ajenda.JsonValue

/-!
# Webhook deliveries

`_deliver` records an attempt, posts it and disables the endpoint after repeated failures, which
are counted over the stored rows of the endpoint. The session does not flush by itself: the row of
the attempt is stored as delivering while the failures are counted. Row ids are the positions of
the rows.
-/
namespace Ajenda.Webhooks
open JsonValue (Json)

section Records

structure WebhookEndpoint where
  id : String
  tenantId : String
  isActive : Bool
  eventTypes : List String
  deriving DecidableEq

inductive DeliveryStatus
  | pending | delivering | delivered | failed | deadLettered
  deriving DecidableEq

structure WebhookDelivery where
  id : ℕ
  endpointId : String
  tenantId : String
  eventType : String
  eventId : String
  payload : Json
  status : DeliveryStatus
  attemptNumber : ℤ
  httpStatusCode : Option ℤ
  responseBody : Option String
  errorMessage : Option String
  deriving DecidableEq

structure Store where
  endpoints : List WebhookEndpoint
  deliveries : List WebhookDelivery

/-- What the network gives: a status with a body, or the text of an error. -/
inductive Answer
  | response (statusCode : ℤ) (bodyText : String)
  | error (message : String)
  deriving DecidableEq

/-- The arguments of `_deliver` and the answer to its request. -/
structure Attempt where
  endpointId : String
  tenantId : String
  eventType : String
  eventId : String
  payload : Json
  attemptNumber : ℤ
  answer : Answer

def Answer.succeeded : Answer → Bool
  | .response statusCode _ => 200 ≤ statusCode && statusCode < 300
  | .error _ => false

def Attempt.failed (a : Attempt) : Bool := !a.answer.succeeded

end Records

section Delivery

def maxConsecutiveFailures : ℕ := 5

/-- `count_recent_failures`. -/
def countRecentFailures (deliveries : List WebhookDelivery) (endpointId : String)
    (sinceAttempt : ℤ) : ℕ :=
  (deliveries.filter fun d =>
    d.endpointId = endpointId ∧ d.status = .failed ∧ sinceAttempt ≤ d.attemptNumber).length

/-- `disable_endpoint`. -/
def disableEndpoint (endpoints : List WebhookEndpoint) (endpointId tenantId : String) :
    List WebhookEndpoint :=
  endpoints.map fun e =>
    if e.id = endpointId ∧ e.tenantId = tenantId then { e with isActive := false } else e

variable (s : Store) (a : Attempt)

/-- The row that `record_delivery` stores. -/
def deliveringRow : WebhookDelivery where
  id := s.deliveries.length
  endpointId := a.endpointId
  tenantId := a.tenantId
  eventType := a.eventType
  eventId := a.eventId
  payload := a.payload
  status := .delivering
  attemptNumber := a.attemptNumber
  httpStatusCode := none
  responseBody := none
  errorMessage := none

/-- The row with the outcome. -/
def settledRow (status : DeliveryStatus) : WebhookDelivery :=
  match a.answer with
  | .response statusCode bodyText => { deliveringRow s a with
      status := status
      httpStatusCode := some statusCode
      responseBody := some bodyText }
  | .error message => { deliveringRow s a with
      status := status
      errorMessage := some message }

def sinceAttempt : ℤ := max 1 (a.attemptNumber - maxConsecutiveFailures + 1)

/-- The attempt fails and the stored failures are too many. -/
def disables : Bool :=
  a.failed && maxConsecutiveFailures ≤
    countRecentFailures (s.deliveries ++ [deliveringRow s a]) a.endpointId (sinceAttempt a)

/-- `_deliver`. -/
def deliver : Store :=
  if disables s a then
    { endpoints := disableEndpoint s.endpoints a.endpointId a.tenantId
      deliveries := s.deliveries ++ [settledRow s a .deadLettered] }
  else
    { s with
      deliveries := s.deliveries ++ [settledRow s a (if a.failed then .failed else .delivered)] }

end Delivery

section Requests

inductive WebhookError
  | notFound (message : String)
  | replayNotAllowed (message : String)
  deriving DecidableEq

/-- `list_active_endpoints_for_event`. -/
def activeEndpointsForEvent (s : Store) (tenantId eventType : String) : List WebhookEndpoint :=
  s.endpoints.filter fun e => e.tenantId = tenantId && e.isActive && eventType ∈ e.eventTypes

/-- What `dispatch_event` delivers. -/
def dispatchAttempts (s : Store) (tenantId eventType eventId : String) (payload : Json)
    (attemptNumber : ℤ) (answers : String → Answer) : List Attempt :=
  (activeEndpointsForEvent s tenantId eventType).map fun e =>
    ⟨e.id, tenantId, eventType, eventId, payload, attemptNumber, answers e.id⟩

/-- What `replay_delivery` delivers. -/
def replayAttempt (s : Store) (tenantId endpointId : String) (deliveryId : ℕ) (answer : Answer) :
    Except WebhookError Attempt :=
  match s.endpoints.find? fun e => e.id = endpointId ∧ e.tenantId = tenantId with
  | none => .error (.notFound
      s!"Webhook endpoint {endpointId} not found for tenant {tenantId}")
  | some endpoint =>
    match s.deliveries.find? fun d =>
        d.id = deliveryId ∧ d.endpointId = endpointId ∧ d.tenantId = tenantId with
    | none => .error (.notFound (s!"Webhook delivery {deliveryId} not found for endpoint " ++
        s!"{endpointId} and tenant {tenantId}"))
    | some delivery =>
      if delivery.status = .pending ∨ delivery.status = .delivering then
        .error (.replayNotAllowed
          s!"Webhook delivery {deliveryId} is in progress and cannot be replayed yet.")
      else .ok ⟨endpoint.id, tenantId, delivery.eventType, delivery.eventId, delivery.payload,
        delivery.attemptNumber + 1, answer⟩

inductive Request
  | dispatch (tenantId eventType eventId : String) (payload : Json) (attemptNumber : ℤ)
      (answers : String → Answer)
  | replay (tenantId endpointId : String) (deliveryId : ℕ) (answer : Answer)

def Request.attempts (s : Store) : Request → List Attempt
  | .dispatch tenantId eventType eventId payload attemptNumber answers =>
    dispatchAttempts s tenantId eventType eventId payload attemptNumber answers
  | .replay tenantId endpointId deliveryId answer =>
    (replayAttempt s tenantId endpointId deliveryId answer).toOption.toList

def perform (s : Store) (request : Request) : Store :=
  (request.attempts s).foldl deliver s

/-- The store after some attempts, the newest first. -/
def after (endpoints : List WebhookEndpoint) : List Attempt → Store
  | [] => ⟨endpoints, []⟩
  | a :: past => deliver (after endpoints past) a

/-- The attempts that requests make, the newest first. -/
def logOf (endpoints : List WebhookEndpoint) : List Request → List Attempt → List Attempt
  | [], log => log
  | request :: requests, log =>
    logOf endpoints requests ((request.attempts (after endpoints log)).reverse ++ log)

theorem foldl_deliver (endpoints : List WebhookEndpoint) (attempts log : List Attempt) :
    attempts.foldl deliver (after endpoints log) = after endpoints (attempts.reverse ++ log) := by
  induction attempts generalizing log with
  | nil => rfl
  | cons a attempts ih =>
    rw [List.foldl_cons, List.reverse_cons, List.append_assoc]
    exact ih (a :: log)

/-- The store after the requests is the store after their attempts. -/
theorem foldl_perform (endpoints : List WebhookEndpoint) (requests : List Request)
    (log : List Attempt) :
    requests.foldl perform (after endpoints log) =
      after endpoints (logOf endpoints requests log) := by
  induction requests generalizing log with
  | nil => rfl
  | cons request requests ih =>
    rw [List.foldl_cons, perform, foldl_deliver]
    exact ih _

end Requests

section Streaks
variable (endpoints : List WebhookEndpoint)

/-- The four attempts to the endpoint just before, of those made so far, all failed. -/
def streak (past : List Attempt) (a : Attempt) : Bool :=
  let before := (past.filter fun b => b.endpointId = a.endpointId).take (maxConsecutiveFailures - 1)
  before.length = maxConsecutiveFailures - 1 && before.all (·.failed)

/-- The endpoint is disabled by the failures that end five in a row, and by no others. -/
def DisabledOnStreaks (log : List Attempt) : Prop :=
  ∀ a past, a :: past <:+ log → a.failed = true →
    (disables (after endpoints past) a = true ↔ streak past a = true)

/-- The failures of an endpoint from an attempt number on, without those that end five in a row. -/
def openFailures (endpointId : String) (since : ℤ) : List Attempt → ℕ
  | [] => 0
  | a :: past =>
    openFailures endpointId since past +
      if a.endpointId = endpointId ∧ a.failed = true ∧ since ≤ a.attemptNumber ∧ streak past a = false
      then 1 else 0

/-- Every failure has five open ones of close enough numbers behind it exactly when it ends five in
a row. -/
def OpenOnStreaks (log : List Attempt) : Prop :=
  ∀ a past, a :: past <:+ log → a.failed = true →
    (maxConsecutiveFailures ≤ openFailures a.endpointId (sinceAttempt a) past ↔
      streak past a = true)

variable {endpoints} {log past : List Attempt} {a : Attempt} {s : Store}

theorem DisabledOnStreaks.tail (h : DisabledOnStreaks endpoints (a :: past)) :
    DisabledOnStreaks endpoints past :=
  fun b rest hsuffix => h b rest (hsuffix.trans (List.suffix_cons a past))

/-- The row of the attempt itself is not counted. -/
theorem countRecentFailures_delivering (endpointId : String) (since : ℤ) :
    countRecentFailures (s.deliveries ++ [deliveringRow s a]) endpointId since =
      countRecentFailures s.deliveries endpointId since := by
  simp [countRecentFailures, deliveringRow, List.filter_append]

theorem settledRow_fields (status : DeliveryStatus) :
    (settledRow s a status).endpointId = a.endpointId ∧
      (settledRow s a status).status = status ∧
      (settledRow s a status).attemptNumber = a.attemptNumber := by
  unfold settledRow
  split <;> exact ⟨rfl, rfl, rfl⟩

/-- An attempt adds a counted row when it fails without disabling the endpoint. -/
theorem countRecentFailures_deliver (endpointId : String) (since : ℤ) :
    countRecentFailures (deliver s a).deliveries endpointId since =
      countRecentFailures s.deliveries endpointId since +
        if a.endpointId = endpointId ∧ a.failed = true ∧ since ≤ a.attemptNumber ∧
          disables s a = false then 1 else 0 := by
  have hrow (status : DeliveryStatus) :
      countRecentFailures (s.deliveries ++ [settledRow s a status]) endpointId since =
        countRecentFailures s.deliveries endpointId since +
          if a.endpointId = endpointId ∧ status = .failed ∧ since ≤ a.attemptNumber then 1
          else 0 := by
    obtain ⟨hendpoint, hstatus, hnumber⟩ := settledRow_fields (s := s) (a := a) status
    rw [countRecentFailures, List.filter_append, List.length_append, List.filter_singleton]
    simp only [hendpoint, hstatus, hnumber]
    congr 1
    split_ifs with h
    · rw [decide_eq_true h]
      rfl
    · rw [decide_eq_false h]
      rfl
  unfold deliver
  by_cases hdisables : disables s a = true
  · rw [if_pos hdisables, hrow]
    simp [hdisables]
  · rw [if_neg hdisables, hrow]
    cases hfailed : a.failed <;> simp [hdisables]

/-- While the endpoint is disabled on streaks, the open failures are counted. -/
theorem countRecentFailures_after (h : DisabledOnStreaks endpoints log) (endpointId : String)
    (since : ℤ) :
    countRecentFailures (after endpoints log).deliveries endpointId since =
      openFailures endpointId since log := by
  induction log with
  | nil => rfl
  | cons a past ih =>
    rw [after, countRecentFailures_deliver, ih h.tail, openFailures]
    congr 1
    have hstreak := h a past (List.suffix_refl _)
    refine if_congr ?_ rfl rfl
    refine and_congr_right fun _ => and_congr_right fun hfailed => and_congr_right fun _ => ?_
    rw [← Bool.not_eq_true, ← Bool.not_eq_true, hstreak hfailed]

theorem disables_iff_open (h : DisabledOnStreaks endpoints past) (hfailed : a.failed = true) :
    disables (after endpoints past) a = true ↔
      maxConsecutiveFailures ≤ openFailures a.endpointId (sinceAttempt a) past := by
  rw [disables, countRecentFailures_delivering, countRecentFailures_after h, hfailed, Bool.true_and,
    decide_eq_true_eq]

theorem disabledOnStreaks_of_open (h : OpenOnStreaks log) : DisabledOnStreaks endpoints log := by
  induction log with
  | nil =>
    intro a past hsuffix
    exact absurd (List.suffix_nil.1 hsuffix) (List.cons_ne_nil a past)
  | cons b rest ih =>
    have hrest : DisabledOnStreaks endpoints rest :=
      ih fun a past hsuffix => h a past (hsuffix.trans (List.suffix_cons b rest))
    intro a past hsuffix hfailed
    rcases List.suffix_cons_iff.1 hsuffix with heq | hsuffix'
    · cases heq
      rw [disables_iff_open hrest hfailed]
      exact h b rest hsuffix hfailed
    · exact hrest a past hsuffix' hfailed

/-- In a run of requests the endpoint is disabled exactly on five failures in a row if and only if
each failure has five open ones behind it exactly when it ends five in a row. -/
theorem disabledOnStreaks_iff (endpoints : List WebhookEndpoint) (requests : List Request) :
    DisabledOnStreaks endpoints (logOf endpoints requests []) ↔
      OpenOnStreaks (logOf endpoints requests []) := by
  refine ⟨fun h a past hsuffix hfailed => ?_, disabledOnStreaks_of_open⟩
  rw [← disables_iff_open (fun b rest hb => h b rest (hb.trans
    ((List.suffix_cons a past).trans hsuffix))) hfailed]
  exact h a past hsuffix hfailed

end Streaks

section Isolated

def orders : WebhookEndpoint := ⟨"orders", "acme", true, ["task.completed"]⟩

/-- The first attempt of an event. -/
def completed (eventId : String) (statusCode : ℤ) : Request :=
  .dispatch "acme" "task.completed" eventId (.obj []) 1 fun _ => .response statusCode ""

/-- Five events fail at their first attempts and a success follows each. -/
def isolatedFailures : List Request :=
  [completed "1" 500, completed "2" 200, completed "3" 500, completed "4" 200, completed "5" 500,
    completed "6" 200, completed "7" 500, completed "8" 200, completed "9" 500, completed "10" 200]

/-- Then the first failure of one more event disables the endpoint. -/
theorem isolated_disable :
    ¬DisabledOnStreaks [orders] (logOf [orders] (isolatedFailures ++ [completed "11" 500]) []) := by
  intro h
  let past := logOf [orders] isolatedFailures []
  let a : Attempt := ⟨"orders", "acme", "task.completed", "11", .obj [], 1, .response 500 ""⟩
  have hstreak := h a past (List.suffix_refl _) (by decide +kernel)
  have hdisables : disables (after [orders] past) a = true := by decide +kernel
  rw [hstreak] at hdisables
  exact absurd hdisables (by decide +kernel)

end Isolated

end Ajenda.Webhooks
