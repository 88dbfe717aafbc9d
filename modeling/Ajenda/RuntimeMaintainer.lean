import Ajenda.WorkerRuntime

/-!
# The maintainer's transactions

`recoverLease` is one turn of the loop of `recover_expired_leases` and `requeueOrphan` the
commit of `_reconcile_queue_processing_payloads`, each after the queue has accepted its
move. Which leases have outlived their heartbeat is the caller's choice.
-/
namespace Ajenda.Runtime
open JsonValue KeyedRows

/-- The queue move a recovery needs before it commits. -/
inductive RecoveryMove
  | none
  | deadLetter
  | requeue
  deriving DecidableEq

def recoveryMove (task : ExecutionTask) (maxRetries : ℕ) : RecoveryMove :=
  if task.status = .running ∨ task.status = .claimed then
    if maxRetries ≤ task.retryCount then .deadLetter else .requeue
  else .none

/-- Running work passes through `recovering`. -/
def enterRecovery (task : ExecutionTask) : Except Error ExecutionTask :=
  if task.status = .running then transitionTask task .recovering else .ok task

/-- The task of an expired lease after its recovery. -/
def recoverTask (task : ExecutionTask) (maxRetries : ℕ) : Except Error ExecutionTask :=
  match recoveryMove task maxRetries with
  | .none => .ok task
  | .deadLetter => do
    let task ← enterRecovery task
    transitionTask task .deadLettered
  | .requeue => do
    let task ← enterRecovery task
    transitionTask { task with retryCount := task.retryCount + 1 } .queued

/-- One turn of `recover_expired_leases`. -/
def recoverLease (s : Session) (maxRetries : ℕ) (leaseId : String) : Except Error Session :=
  match s.db.leases.get leaseId with
  | none => .ok s
  | some lease =>
    match s.db.tasks.get lease.taskId with
    | none => .ok s
    | some task =>
      if !lease.status.live then .ok s
      else do
        let lease ← transitionLease lease .expired
        let task ← recoverTask task maxRetries
        pure ((s.saveLease lease).saveTask task)

/-- `_active_lease_for_task` finds a lease. -/
def hasActiveLease (db : Db) (tenantId taskId : String) : Bool :=
  db.leases.list.any fun l => l.tenantId = tenantId && l.taskId = taskId && l.status.live

/-- The commit that follows the requeue of an orphaned processing payload. -/
def requeueOrphan (s : Session) (tenantId taskId : String) : Except Error Session :=
  match s.db.tasks.get taskId with
  | none => .ok s
  | some task =>
    if task.tenantId ≠ tenantId ∨ hasActiveLease s.db tenantId taskId ∨ task.status.terminal then
      .ok s
    else
      match task.status with
      | .running => do
        let task ← enterRecovery task
        let task ← transitionTask { task with retryCount := task.retryCount + 1 } .queued
        pure (s.saveTask task)
      | .claimed | .recovering => do
        let task ← transitionTask task .queued
        pure (s.saveTask task)
      | _ => .ok s

end Ajenda.Runtime
