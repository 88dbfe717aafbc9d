import Ajenda.JsonValue
import Ajenda.KeyedRows

/-!
# The runtime's records and their state machine

The rows of missions, execution tasks, worker leases and queue dispatches with the columns
the runtime services read and write, and the transition tables of `StateMachine`. Times are
kept in their text form; `metadata_json` is a JSON object.
-/
namespace Ajenda.Runtime
open JsonValue KeyedRows

inductive MissionState
  | planned | approved | queued | running | paused | completed | failed | cancelled | archived
  deriving DecidableEq, Repr

inductive ExecutionTaskState
  | planned | queued | claimed | running | recovering | blocked | completed | failed
  | cancelled | deadLettered | pendingReview
  deriving DecidableEq, Repr

inductive WorkerLeaseState
  | claimed | active | expired | released
  deriving DecidableEq, Repr

inductive DispatchStatus
  | heldReview | pending | published | cancelled
  deriving DecidableEq, Repr

/-- What a service call raises. -/
inductive Error
  | invalidMissionTransition (source target : MissionState)
  | invalidTaskTransition (source target : ExecutionTaskState)
  | invalidLeaseTransition (source target : WorkerLeaseState)
  | value (message : String)
  | runtime (message : String)
  | integrity
  | recursion
  deriving DecidableEq, Repr

/-- `_MISSION_ALLOWED`. -/
def missionAllowed : MissionState → List MissionState
  | .planned => [.approved, .running, .cancelled, .completed, .failed]
  | .approved => [.queued, .running, .cancelled]
  | .queued => [.running, .cancelled]
  | .running => [.paused, .completed, .failed, .cancelled]
  | .paused => [.running]
  | .completed => [.archived]
  | .failed => [.running, .archived]
  | .cancelled => [.archived]
  | .archived => []

/-- `_TASK_ALLOWED`. -/
def taskAllowed : ExecutionTaskState → List ExecutionTaskState
  | .planned => [.queued, .pendingReview, .cancelled, .blocked]
  | .queued => [.claimed, .cancelled, .blocked]
  | .claimed => [.queued, .running, .cancelled, .blocked, .deadLettered]
  | .running => [.blocked, .completed, .failed, .recovering]
  | .recovering => [.queued, .deadLettered]
  | .blocked => [.queued]
  | .failed => [.queued, .pendingReview, .deadLettered]
  | .deadLettered => [.queued, .pendingReview]
  | .pendingReview => [.queued, .cancelled, .failed]
  | .completed | .cancelled => []

/-- `_LEASE_ALLOWED`. -/
def leaseAllowed : WorkerLeaseState → List WorkerLeaseState
  | .claimed => [.active, .expired]
  | .active => [.released, .expired]
  | .expired => [.released]
  | .released => []

structure Mission where
  id : String
  tenantId : String
  status : MissionState
  metadata : Fields
  deriving DecidableEq

structure ExecutionTask where
  id : String
  tenantId : String
  missionId : String
  fleetId : Option String
  branchId : Option String
  status : ExecutionTaskState
  metadata : Fields
  retryCount : ℕ
  deriving DecidableEq

structure WorkerLease where
  id : String
  tenantId : String
  taskId : String
  status : WorkerLeaseState
  holderIdentity : String
  deriving DecidableEq

/-- A row of `runtime_queue_dispatches`; `published` and `cleaned` say whether
`published_at` and `cancelled_at` are set. -/
structure RuntimeQueueDispatch where
  id : String
  tenantId : String
  taskId : String
  missionId : String
  fleetId : Option String
  branchId : Option String
  payload : Fields
  status : DispatchStatus
  published : Bool
  cleaned : Bool
  createdAt : String
  deriving DecidableEq

structure EvidenceRecord where
  id : String
  taskId : String
  content : Json
  deriving DecidableEq

structure LineageRecord where
  taskId : String
  workerLeaseId : String
  relationshipReason : Option String
  metadata : Fields
  deriving DecidableEq

instance : Keyed Mission := ⟨Mission.id⟩
instance : Keyed ExecutionTask := ⟨ExecutionTask.id⟩
instance : Keyed WorkerLease := ⟨WorkerLease.id⟩
instance : Keyed RuntimeQueueDispatch := ⟨RuntimeQueueDispatch.id⟩

/-- The committed rows, as one transaction sees them together with its own changes. -/
structure Db where
  missions : Rows Mission
  tasks : Rows ExecutionTask
  leases : Rows WorkerLease
  dispatches : Rows RuntimeQueueDispatch
  evidence : List EvidenceRecord
  lineage : List LineageRecord

def Db.empty : Db := ⟨.empty, .empty, .empty, .empty, [], []⟩

@[simps] def ExecutionTask.withStatus (task : ExecutionTask) (status : ExecutionTaskState) :
    ExecutionTask := { task with status }

@[simps] def ExecutionTask.withMetadata (task : ExecutionTask) (metadata : Fields) :
    ExecutionTask := { task with metadata }

@[simps] def WorkerLease.withStatus (lease : WorkerLease) (status : WorkerLeaseState) :
    WorkerLease := { lease with status }

def transitionTask (task : ExecutionTask) (target : ExecutionTaskState) :
    Except Error ExecutionTask :=
  if target ∈ taskAllowed task.status then .ok (task.withStatus target)
  else .error (.invalidTaskTransition task.status target)

def transitionMission (mission : Mission) (target : MissionState) : Except Error Mission :=
  if target ∈ missionAllowed mission.status then .ok { mission with status := target }
  else .error (.invalidMissionTransition mission.status target)

def transitionLease (lease : WorkerLease) (target : WorkerLeaseState) :
    Except Error WorkerLease :=
  if target ∈ leaseAllowed lease.status then .ok (lease.withStatus target)
  else .error (.invalidLeaseTransition lease.status target)

/-- `_TERMINAL_TASK_STATES`. -/
def ExecutionTaskState.terminal : ExecutionTaskState → Bool
  | .completed | .failed | .cancelled | .deadLettered | .blocked => true
  | _ => false

/-- `failedish` of the rollup. -/
def ExecutionTaskState.failedish : ExecutionTaskState → Bool
  | .failed | .deadLettered | .blocked => true
  | _ => false

/-- The mission states a rollup does not reopen. -/
def MissionState.terminal : MissionState → Bool
  | .completed | .failed | .cancelled | .archived => true
  | _ => false

/-- A lease that its worker still holds. -/
def WorkerLeaseState.live : WorkerLeaseState → Bool
  | .claimed | .active => true
  | _ => false

theorem transitionTask_eq_ok {task task' : ExecutionTask} {target : ExecutionTaskState} :
    transitionTask task target = .ok task' ↔
      target ∈ taskAllowed task.status ∧ task' = task.withStatus target := by
  unfold transitionTask
  split_ifs with h <;> simp [h, eq_comm]

theorem transitionMission_eq_ok {mission mission' : Mission} {target : MissionState} :
    transitionMission mission target = .ok mission' ↔
      target ∈ missionAllowed mission.status ∧ mission' = { mission with status := target } := by
  unfold transitionMission
  split_ifs with h <;> simp [h, eq_comm]

theorem transitionLease_eq_ok {lease lease' : WorkerLease} {target : WorkerLeaseState} :
    transitionLease lease target = .ok lease' ↔
      target ∈ leaseAllowed lease.status ∧ lease' = lease.withStatus target := by
  unfold transitionLease
  split_ifs with h <;> simp [h, eq_comm]

/-- `x >>= f` succeeds exactly when both parts do. -/
theorem bind_eq_ok {α β : Type} {x : Except Error α} {f : α → Except Error β} {b : β} :
    (x >>= f) = .ok b ↔ ∃ a, x = .ok a ∧ f a = .ok b := by
  cases x with
  | error e => simp [bind, Except.bind]
  | ok a => simp [bind, Except.bind]

end Ajenda.Runtime
