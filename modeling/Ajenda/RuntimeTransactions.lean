import Ajenda.ExecutionCoordinator
import Ajenda.RuntimeMaintainer
import Ajenda.TransitionSystem

/-!
# The runtime as a transition system of transactions

A label is one database transaction of the services with everything it reads from outside:
the time, the identifiers it draws, the decisions of the gates. A transaction that raises
leaves the rows as they were. Any list of labels is a run, so workers, maintainer and
operators interleave in every order; the queue calls between the transactions do not touch
the rows.
-/
namespace Ajenda.Runtime
open JsonValue KeyedRows TransitionSystem

inductive Transaction
  | createMission (mission : Mission)
  | createTask (task : ExecutionTask)
  | claim (clarification : Fields → Bool) (tenantId taskId workerId leaseId : String)
  | heartbeat (tenantId leaseId workerId : String)
  | start (tenantId leaseId workerId : String)
  | complete (tenantId leaseId workerId : String) (taskOutput : Option Fields)
      (outputReason : Option String) (runtimeMetadata : Option Fields)
  | blockCompletionFailure (tenantId leaseId workerId : String)
  | fail (tenantId leaseId workerId reason evidenceId : String)
  | release (tenantId leaseId workerId : String)
  | cancelTask (tenantId taskId reason : String)
  | recoverLease (maxRetries : ℕ) (leaseId : String)
  | requeueOrphan (tenantId taskId : String)
  | queueTask (tenantId taskId : String) (gate : Gate) (withinQuota : Bool)
  | approveReviewAndQueue (tenantId taskId : String) (gate : Gate) (withinQuota : Bool)
      (grant : Fields) (receipt : Fields → Except Error Fields)
  | markDeadLetter (tenantId taskId : String)
  | retryTask (tenantId taskId : String) (gate : Gate)
  | finishCancelMission (tenantId missionId reason : String)
  | acknowledgePublication (dispatchId : String)
  | dropDueDispatch (dispatchId : String)
  | acknowledgeCleanup (dispatchId : String)

/-- A transaction with its time and the dispatch identifiers it draws. -/
structure Call where
  amb : Ambient
  transaction : Transaction

def insertMission (s : Session) (mission : Mission) : Except Error Session :=
  match s.db.missions.insert mission with
  | none => .error .integrity
  | some missions => .ok { s with db := { s.db with missions } }

/-- A task is created without a lease. -/
def insertTask (s : Session) (task : ExecutionTask) : Except Error Session :=
  match s.db.tasks.insert task with
  | none => .error .integrity
  | some tasks => .ok { s with db := { s.db with tasks } }

/-- The session one transaction commits. -/
def Call.run (env : Env) (c : Call) (db : Db) : Except Error Session :=
  let s := db.open
  match c.transaction with
  | .createMission mission => insertMission s mission
  | .createTask task => insertTask s task
  | .claim clarification tenantId taskId workerId leaseId => do
      let (s, _) ← claimTask env c.amb s clarification tenantId taskId workerId leaseId
      pure s
  | .heartbeat tenantId leaseId workerId => heartbeat s tenantId leaseId workerId
  | .start tenantId leaseId workerId => startExecution s tenantId leaseId workerId
  | .complete tenantId leaseId workerId taskOutput outputReason runtimeMetadata =>
      complete env c.amb s tenantId leaseId workerId taskOutput outputReason runtimeMetadata
  | .blockCompletionFailure tenantId leaseId workerId =>
      blockCompletionFailure s tenantId leaseId workerId
  | .fail tenantId leaseId workerId reason evidenceId =>
      fail env c.amb s tenantId leaseId workerId reason evidenceId
  | .release tenantId leaseId workerId => release s tenantId leaseId workerId
  | .cancelTask tenantId taskId reason => cancelTask env c.amb s tenantId taskId reason
  | .recoverLease maxRetries leaseId => recoverLease s maxRetries leaseId
  | .requeueOrphan tenantId taskId => requeueOrphan s tenantId taskId
  | .queueTask tenantId taskId gate withinQuota => do
      let (s, _) ← queueTask c.amb s tenantId taskId gate withinQuota
      pure s
  | .approveReviewAndQueue tenantId taskId gate withinQuota grant receipt =>
      approveReviewAndQueue c.amb s tenantId taskId gate withinQuota grant receipt
  | .markDeadLetter tenantId taskId => markDeadLetter s tenantId taskId
  | .retryTask tenantId taskId gate => retryTask c.amb s tenantId taskId gate
  | .finishCancelMission tenantId missionId reason =>
      finishCancelMission c.amb s tenantId missionId reason
  | .acknowledgePublication dispatchId => .ok (acknowledgePublication s dispatchId)
  | .dropDueDispatch dispatchId => .ok (dropDueDispatch s dispatchId)
  | .acknowledgeCleanup dispatchId => .ok (acknowledgeCleanup s dispatchId)

/-- The rows after a transaction; a raise rolls back. -/
def commit (env : Env) (db : Db) (c : Call) : Db :=
  match c.run env db with
  | .ok s => s.db
  | .error _ => db

/-- The evaluation of missions whose tasks declare no output contract and whose acceptance
contract is empty. -/
def Env.plain : Env where
  text := fun _ => ""
  recursionLimit := 1000
  refreshDeliverable := fun _ _ => none
  validateDeclaredOutput := fun _ _ => .ok ()
  toolActionEvidence := fun _ _ _ => .ok []
  observeAcceptanceReasons := fun _ _ => .ok []
  evaluateMissionAcceptance := fun _ _ => .ok (true, [])
  artifactCompleteness := fun _ _ _ _ _ => .obj []

end Ajenda.Runtime
