import Ajenda.WorkerRuntime

/-!
# The coordinator's transactions

Admission, review, dead-lettering and retry of a task. What the governor, the review gates,
the policy and the quota decide is an argument of the call.
-/
namespace Ajenda.Runtime
open JsonValue KeyedRows

/-- The decision of the gates of one admission. -/
inductive Gate
  | denied
  | review
  | admitted
  deriving DecidableEq

/-- `_require_task`. -/
def requireTask (s : Session) (tenantId taskId : String) : Except Error ExecutionTask :=
  match s.db.tasks.get taskId with
  | none => .error (.value "task not found for tenant")
  | some task =>
    if task.tenantId ≠ tenantId then .error (.value "task not found for tenant") else .ok task

/-- `_place_in_review`. -/
def placeInReview (s : Session) (task : ExecutionTask) : Except Error (Session × ExecutionTask) := do
  let task ← transitionTask task .pendingReview
  let task :=
    if Fields.get task.metadata "social_publication_state" = some (.str "draft") then
      task.withMetadata (Fields.set task.metadata "social_publication_state" (.str "reviewed"))
    else task
  pure (s.saveTask task, task)

/-- `_record_task_admission`. -/
def recordTaskAdmission (amb : Ambient) (withinQuota : Bool) (s : Session) (task : ExecutionTask)
    (heldForReview : Bool) : Except Error Session := do
  let (s, created) ← admitTask amb s task heldForReview
  if created && !withinQuota then .error (.runtime "quota exceeded") else pure s

section Calls
variable (amb : Ambient) (s : Session) (tenantId taskId : String)

/-- `queue_task`; the flag is the `ok` of its result. -/
def queueTask (gate : Gate) (withinQuota : Bool) : Except Error (Session × Bool) := do
  let task ← requireTask s tenantId taskId
  match gate with
  | .denied => pure (s, false)
  | .review => do
    let (s, task) ← placeInReview s task
    let s ← recordTaskAdmission amb withinQuota s task true
    pure (s, false)
  | .admitted => do
    let task ← transitionTask task .queued
    let s ← recordTaskAdmission amb withinQuota (s.saveTask task) task false
    match s.db.missions.get task.missionId with
    | some mission =>
      if mission.tenantId ≠ tenantId then
        .error (.value "task mission is not owned by tenant")
      else pure (s, true)
    | none => pure (s, true)

/-- The metadata keys an approval writes. -/
def approvalKeys : List String :=
  ["tool_invocation", "input_binding_audit", "execution_constraints", "social_publication_state"]

/-- `approve_review_and_queue`: the metadata of the grant it issues and the mission metadata of
its admission receipt are arguments. -/
def approveReviewAndQueue (gate : Gate) (withinQuota : Bool) (grant : Fields)
    (receipt : Fields → Except Error Fields) : Except Error Session := do
  let task ← requireTask s tenantId taskId
  if task.status ≠ .pendingReview then
    .error (.value "expected status 'pending_review'")
  else
    let metadata := Fields.update task.metadata (grant.filter fun f => f.1 ∈ approvalKeys)
    let (s, ok) ← queueTask amb (s.saveTask (task.withMetadata metadata)) tenantId taskId gate withinQuota
    if !ok then .error (.value "reviewed task failed runtime admission")
    else
      match s.db.missions.get task.missionId with
      | none => .error (.value "reviewed task mission is not owned by tenant")
      | some mission => do
        let metadata ← receipt mission.metadata
        pure (s.saveMission { mission with metadata })

/-- `mark_dead_letter`, with the queue accepting the move. -/
def markDeadLetter : Except Error Session := do
  let task ← requireTask s tenantId taskId
  let task ← transitionTask task .deadLettered
  pure (s.saveTask task)

def statusText : ExecutionTaskState → String
  | .planned => "planned"
  | .queued => "queued"
  | .claimed => "claimed"
  | .running => "running"
  | .recovering => "recovering"
  | .blocked => "blocked"
  | .completed => "completed"
  | .failed => "failed"
  | .cancelled => "cancelled"
  | .deadLettered => "dead_lettered"
  | .pendingReview => "pending_review"

/-- `_preserve_retryable_failure`. -/
def preserveRetryableFailure (task : ExecutionTask) : ExecutionTask :=
  let metadata := Fields.pop task.metadata "failure"
  match Fields.get task.metadata "failure" with
  | some (.obj failure) =>
    let entry : Json := .obj [("failure", .obj failure),
      ("previous_status", .str (statusText task.status)), ("retried_at", .str amb.now)]
    task.withMetadata (Fields.set metadata "retry_history"
      (extendHistory (Fields.get metadata "retry_history") entry))
  | _ => task.withMetadata metadata

/-- `_reopen_failed_mission_for_retry`. -/
def reopenFailedMission (task : ExecutionTask) : Except Error Session :=
  match s.db.missions.get task.missionId with
  | none => .error (.value "task mission is not owned by tenant")
  | some mission =>
    if mission.tenantId ≠ tenantId then .error (.value "task mission is not owned by tenant")
    else if mission.status ≠ .failed then .ok s
    else do
      let metadata := Fields.pop mission.metadata "acceptance"
      let metadata := match Fields.get mission.metadata "acceptance" with
        | some (.obj acceptance) =>
          let entry : Json := .obj [("acceptance", .obj acceptance),
            ("superseded_by", .str "governed_task_retry"), ("task_id", .str task.id),
            ("superseded_at", .str amb.now)]
          Fields.set metadata "acceptance_history"
            (extendHistory (Fields.get metadata "acceptance_history") entry)
        | _ => metadata
      let metadata := Fields.set metadata "runtime_recovery" (.obj [
        ("schema_version", natJson 1), ("reason", .str "governed_task_retry"),
        ("retry_task_id", .str task.id), ("previous_mission_status", .str "failed"),
        ("reopened_at", .str amb.now)])
      let mission ← transitionMission { mission with metadata } .running
      pure (s.saveMission mission)

/-- `retry_task`. -/
def retryTask (gate : Gate) : Except Error Session := do
  let task ← requireTask s tenantId taskId
  if task.status ≠ .deadLettered ∧ task.status ≠ .failed then
    .error (.value "task is not dead-lettered or failed")
  else
    match gate with
    | .denied => pure s
    | .review => do
      let (s, _) ← placeInReview s task
      pure s
    | .admitted => do
      let task := preserveRetryableFailure amb task
      let s ← reopenFailedMission amb (s.saveTask task) tenantId task
      let task ← transitionTask task .queued
      retry amb (s.saveTask task) task

end Calls
end Ajenda.Runtime
