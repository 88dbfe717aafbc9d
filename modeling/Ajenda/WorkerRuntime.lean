import Ajenda.MissionInputBinding
import Ajenda.MissionRollup

/-!
# The worker's transactions

The database transactions of `WorkerRuntimeService`. Each takes a session to the session it
commits, or raises and leaves nothing. The queue calls a method makes before or after its
transaction are separate steps. A claim takes the task of the message it received; the
identifier of a new lease is drawn by the caller.
-/
namespace Ajenda.Runtime
open JsonValue KeyedRows

section Leases

/-- `_get_owned_lease`. -/
def getOwnedLease (s : Session) (tenantId leaseId workerId : String) : Except Error WorkerLease :=
  match s.db.leases.get leaseId with
  | none => .error (.value "lease not found for tenant worker")
  | some lease =>
    if lease.tenantId ≠ tenantId ∨ lease.holderIdentity ≠ workerId then
      .error (.value "lease not found for tenant worker")
    else .ok lease

/-- `_get_task_for_lease`. -/
def getTaskForLease (s : Session) (lease : WorkerLease) : Except Error ExecutionTask :=
  match s.db.tasks.get lease.taskId with
  | none => .error (.value "task not found")
  | some task => .ok task

/-- `assert_no_active_lease`. -/
def assertNoActiveLease (s : Session) (tenantId taskId : String) : Except Error Unit :=
  if s.db.leases.list.any fun l => l.tenantId = tenantId && l.taskId = taskId && l.status.live then
    .error (.value "task already has an active lease")
  else .ok ()

/-- A claimed lease becomes active. -/
def activateLease (lease : WorkerLease) : Except Error WorkerLease :=
  if lease.status = .claimed then transitionLease lease .active else .ok lease

/-- `transition_lease_to_released`. -/
def transitionLeaseToReleased (lease : WorkerLease) : Except Error WorkerLease :=
  if lease.status = .released then .ok lease
  else do
    let lease ← activateLease lease
    transitionLease lease .released

def ExecutionTask.currentLease (task : ExecutionTask) : Option Json :=
  Fields.get task.metadata "worker_lease_id"

/-- `assert_current_releasable_claim`. -/
def assertCurrentReleasableClaim (tenantId : String) (lease : WorkerLease)
    (task : ExecutionTask) : Except Error Unit :=
  if !lease.status.live then .error (.value "lease is not release-eligible")
  else if task.tenantId ≠ tenantId ∨ lease.tenantId ≠ tenantId then
    .error (.value "task not found for tenant lease")
  else if task.status ≠ .claimed then .error (.value "task is not claimed")
  else if task.currentLease ≠ some (.str lease.id) then
    .error (.value "lease is not current task claim")
  else .ok ()

/-- Insert a lease. -/
def addLease (s : Session) (lease : WorkerLease) : Except Error Session :=
  match s.db.leases.insert lease with
  | none => .error .integrity
  | some leases => .ok { s with db := { s.db with leases } }

end Leases

/-- `refresh_deliverable_completion_read_model`. -/
def refreshDeliverableReadModel (env : Env) (amb : Ambient) (s : Session)
    (task : ExecutionTask) : Session :=
  match getMissionForTenant s amb.now task.missionId task.tenantId with
  | none => s
  | some (s, mission) =>
    match env.refreshDeliverable mission.metadata (s.db.listForMission task.missionId) with
    | none => s
    | some metadata => s.saveMission { mission with metadata }

inductive ClaimOutcome
  | notFound
  | terminal
  | stale
  | deferred
  | claimed
  deriving DecidableEq

section Claim
variable (env : Env) (amb : Ambient) (s : Session)

/-- A claimed task whose mission intake is a planner clarification is cancelled. -/
def cancelStaleTask (task : ExecutionTask) : Except Error Session := do
  let task ← transitionTask task .cancelled
  let s ← maybeRollupMissionStatus env amb env.recursionLimit (s.saveTask task) task
  pure (cancel s task)

/-- A new lease for the task, recorded in its metadata. -/
def takeLease (task : ExecutionTask) (tenantId workerId leaseId : String) :
    Except Error (Session × ExecutionTask × WorkerLease) := do
  assertNoActiveLease s tenantId task.id
  let task ← transitionTask task .claimed
  let lease : WorkerLease := ⟨leaseId, tenantId, task.id, .claimed, workerId⟩
  let s ← addLease s lease
  let task := task.withMetadata (Fields.set task.metadata "worker_lease_id" (.str leaseId))
  pure (s.saveTask task, task, lease)

/-- Give a claimed task back until its dependencies have completed. -/
def deferForDependencies (task : ExecutionTask) (lease : WorkerLease) (pending : List String) :
    Except Error Session := do
  let lease ← transitionLeaseToReleased lease
  let task ← transitionTask task .queued
  let deferral : Json := .obj [("pending_keys", .arr (pending.map .str)),
    ("deferred_at", .str amb.now)]
  let task := task.withMetadata (Fields.pop
    (Fields.set task.metadata "dependency_deferral" deferral) "worker_lease_id")
  pure ((s.saveLease lease).saveTask task)

/-- The transaction of `claim_next_task` for the task its message names. -/
def claimTask (clarification : Fields → Bool) (tenantId taskId workerId leaseId : String) :
    Except Error (Session × ClaimOutcome) :=
  match s.db.tasks.get taskId with
  | none => .ok (s, .notFound)
  | some task =>
    if task.tenantId ≠ tenantId then .ok (s, .notFound)
    else if task.status.terminal then .ok (s, .terminal)
    else
      let loaded := getMissionForTenant s amb.now task.missionId tenantId
      let s := (loaded.map Prod.fst).getD s
      if (loaded.map fun m => clarification m.2.metadata).getD false then do
        let s ← cancelStaleTask env amb s task
        pure (s, .stale)
      else do
        let (s, task, lease) ← takeLease s task tenantId workerId leaseId
        let pending := pendingDependencyKeys task (s.db.listForMission task.missionId)
        if pending.isEmpty then pure (s, .claimed)
        else do
          let s ← deferForDependencies amb s task lease pending
          pure (s, .deferred)

end Claim

section Work
variable (env : Env) (amb : Ambient) (s : Session)

/-- `heartbeat`, after the queue has accepted it. -/
def heartbeat (tenantId leaseId workerId : String) : Except Error Session := do
  let lease ← getOwnedLease s tenantId leaseId workerId
  if !lease.status.live then .error (.value "lease is not heartbeat-eligible")
  else do
    let lease ← activateLease lease
    pure (s.saveLease lease)

/-- `start_execution`: a task that is not claimed is returned as it is. -/
def startExecution (tenantId leaseId workerId : String) : Except Error Session := do
  let lease ← getOwnedLease s tenantId leaseId workerId
  let task ← getTaskForLease s lease
  if task.status = .claimed then do
    let lease ← activateLease lease
    let task ← transitionTask task .running
    let task := task.withMetadata
      (Fields.set task.metadata "runtime_evidence_contract_version" (.str "1"))
    pure ((s.saveLease lease).saveTask task)
  else pure s

/-- The runtime metadata a completion carries over. -/
def mergeRuntimeMetadata (metadata : Fields) (runtimeMetadata : Option Fields) : Fields :=
  match runtimeMetadata with
  | none => metadata
  | some extra =>
    Fields.update metadata (extra.filter fun f =>
      f.1 ∈ ["runtime_causal_observations", "input_binding_audit", "tool_invocation"])

/-- `_mirror_task_output_to_metadata`. -/
def mirrorTaskOutput (metadata taskOutput : Fields) : Fields :=
  let nested := match Fields.get taskOutput "output" with
    | none | some .null => .obj taskOutput
    | some nested => nested
  Fields.set (Fields.set metadata "handler_result" (.obj taskOutput)) "output" nested

/-- `_materialized_artifact_reference`. -/
def materializedArtifactReference (metadata : Fields) (evidenceIds : List String) : List Json :=
  match nonBlank ((Fields.get metadata "expected_output_contract").bind (·.field "artifact")),
    evidenceIds with
  | some artifactKey, evidenceId :: _ =>
      [.obj [("artifact_id", .str evidenceId), ("artifact_key", .str artifactKey),
        ("evidence_id", .str evidenceId)]]
  | _, _ => []

/-- `_complete_cancel_requested`. -/
def completeCancelRequested (task : ExecutionTask) (lease : WorkerLease) : Except Error Session := do
  let task ← transitionTask task .cancelled
  let lease ← transitionLeaseToReleased lease
  pure (cancel ((s.saveTask task).saveLease lease) task)

/-- Attach the output of a completed task: its metadata, lineage and evidence. -/
def recordOutput (task : ExecutionTask) (lease : WorkerLease) (taskOutput : Option Fields)
    (outputReason : Option String) : Except Error (Session × ExecutionTask) :=
  match taskOutput with
  | none => .ok (s, task)
  | some taskOutput => do
    let task := task.withMetadata (mirrorTaskOutput task.metadata taskOutput)
    let records ← env.toolActionEvidence task lease taskOutput
    let references := materializedArtifactReference task.metadata (records.map EvidenceRecord.id)
    let task := if references.isEmpty then task else
      task.withMetadata (Fields.set task.metadata "materialized_artifacts" (.arr references))
    pure ({ s with db := { s.db with
      lineage := s.db.lineage ++ [⟨task.id, lease.id, outputReason, taskOutput⟩]
      evidence := s.db.evidence ++ records } }, task)

/-- `complete`. -/
def complete (tenantId leaseId workerId : String) (taskOutput : Option Fields)
    (outputReason : Option String) (runtimeMetadata : Option Fields) : Except Error Session := do
  let lease ← getOwnedLease s tenantId leaseId workerId
  let task ← getTaskForLease s lease
  if task.status ≠ .running then .error (.value "task is not running")
  else
    let task := task.withMetadata (mergeRuntimeMetadata task.metadata runtimeMetadata)
    if (fieldOr task.metadata "cancel_requested").truthy then completeCancelRequested s task lease
    else do
      env.validateDeclaredOutput task taskOutput
      let task ← transitionTask task .completed
      let task := task.withMetadata (Fields.pop task.metadata "failure")
      let lease ← transitionLeaseToReleased lease
      let (s, task) ← recordOutput env (s.saveLease lease) task lease taskOutput outputReason
      let s := refreshDeliverableReadModel env amb (s.saveTask task) task
      maybeRollupMissionStatus env amb env.recursionLimit s task

/-- `block_completion_failure`. -/
def blockCompletionFailure (tenantId leaseId workerId : String) : Except Error Session := do
  let lease ← getOwnedLease s tenantId leaseId workerId
  let task ← getTaskForLease s lease
  if task.status ≠ .running then .error (.value "task is not running")
  else do
    let task ← transitionTask task .blocked
    let lease ← transitionLeaseToReleased lease
    pure ((s.saveTask task).saveLease lease)

/-- The `failure` entry of a failed task. -/
def handlerFailure (now reason : String) : Json :=
  .obj [("code", .str "HANDLER_FAILED"), ("message", .str reason), ("retryable", .bool true),
    ("failed_at", .str now)]

/-- `_failure_evidence_record`; its identifier is drawn by the caller. -/
def failureEvidenceRecord (task : ExecutionTask) (lease : WorkerLease)
    (workerId reason evidenceId : String) : EvidenceRecord :=
  ⟨evidenceId, task.id, .obj [("task_id", .str task.id), ("lease_id", .str lease.id),
    ("worker_id", .str workerId), ("failure_code", .str "HANDLER_FAILED"),
    ("reason", .str reason), ("artifact_produced", .bool false)]⟩

/-- `fail`. -/
def fail (tenantId leaseId workerId reason evidenceId : String) : Except Error Session := do
  let lease ← getOwnedLease s tenantId leaseId workerId
  let task ← getTaskForLease s lease
  if task.status ≠ .claimed ∧ task.status ≠ .running ∧ task.status ≠ .blocked then
    .error (.value "task is not fail-eligible")
  else do
    let task ← transitionTask task .failed
    let task := task.withMetadata
      (Fields.set task.metadata "failure" (handlerFailure amb.now reason))
    let record := failureEvidenceRecord task lease workerId reason evidenceId
    let lease ← transitionLeaseToReleased lease
    let s := (s.saveTask task).saveLease lease
    let s := { s with db := { s.db with evidence := s.db.evidence ++ [record] } }
    let s := refreshDeliverableReadModel env amb s task
    maybeRollupMissionStatus env amb env.recursionLimit s task

/-- `release`, with the queue accepting it. -/
def release (tenantId leaseId workerId : String) : Except Error Session := do
  let lease ← getOwnedLease s tenantId leaseId workerId
  let task ← getTaskForLease s lease
  assertCurrentReleasableClaim tenantId lease task
  let lease ← transitionLeaseToReleased lease
  let task ← transitionTask task .queued
  pure ((s.saveLease lease).saveTask task)

/-- `cancel_task`. -/
def cancelTask (tenantId taskId reason : String) : Except Error Session :=
  match s.db.tasks.get taskId with
  | none => .error (.value "task not found for tenant")
  | some task =>
    if task.tenantId ≠ tenantId then .error (.value "task not found for tenant")
    else if task.status.terminal then .ok s
    else if task.status = .running ∨ task.status = .claimed then
      let metadata := Fields.set (Fields.set (Fields.set task.metadata "cancel_requested"
        (.bool true)) "cancel_requested_at" (.str amb.now)) "cancel_reason" (.str reason)
      let task := task.withMetadata metadata
      maybeRollupMissionStatus env amb env.recursionLimit (s.saveTask task) task
    else do
      let task ← transitionTask task .cancelled
      let task := task.withMetadata (Fields.set task.metadata "cancel_reason" (.str reason))
      let s := cancel (s.saveTask task) task
      maybeRollupMissionStatus env amb env.recursionLimit s task

/-- The last transaction of `cancel_mission`, on the mission it has locked. -/
def finishCancelMission (tenantId missionId reason : String) : Except Error Session :=
  match s.db.missions.get missionId with
  | none => .error (.value "mission not found for tenant")
  | some mission =>
    if mission.tenantId ≠ tenantId then .error (.value "mission not found for tenant")
    else if mission.status.terminal then .ok s
    else do
      let mission ← transitionMission mission .cancelled
      pure (s.saveMission { mission with
        metadata := Fields.set (Fields.set mission.metadata "cancel_reason" (.str reason))
          "cancelled_at" (.str amb.now) })

end Work
end Ajenda.Runtime
