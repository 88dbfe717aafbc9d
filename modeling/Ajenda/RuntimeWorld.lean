import Ajenda.RedisQueueRun
import Ajenda.RuntimeTransactions

/-!
# The rows and the queue of one tenant

A `World` is the committed rows of a tenant, as row-level security shows them, together with
its queue. An operation is a whole service call: its transaction, the publications its commit
triggers and its queue calls, in the order of the source. The two loops of the dispatcher and
the two of the maintainer are taken turn by turn.
-/
namespace Ajenda.Runtime
open JsonValue KeyedRows TransitionSystem
open RedisQueue (Config Store)

structure World where
  db : Db
  queue : Store

def World.empty : World := ⟨.empty, .empty⟩

section Publication
variable (cfg : Config)

/-- `_idempotency_key`. -/
def idempotencyKey (dispatchId : String) (generation : ℕ) : String :=
  if generation = 0 then dispatchId else dispatchId ++ ":retry:" ++ generation.repr

/-- `_message`. -/
def dispatchMessage (dispatch : RuntimeQueueDispatch) : RedisQueue.QueueMessage :=
  ⟨dispatch.tenantId, dispatch.taskId, dispatch.missionId, dispatch.fleetId, dispatch.branchId,
    dispatch.payload, dispatch.createdAt⟩

/-- `enqueue_task_idempotent` with the key of a generation. -/
def enqueueGeneration (queue : Store) (dispatch : RuntimeQueueDispatch) (generation : ℕ) :
    Bool × Store :=
  match RedisQueue.idempotentEnqueueScript queue (idempotencyKey dispatch.id generation)
    dispatch.taskId (RedisQueue.encodeMessage (dispatchMessage dispatch)) with
  | (.ok _, queue) => (true, queue)
  | (_, queue) => (false, queue)

/-- `_publish`; the flag is the `ok` of its result. -/
def publish (queue : Store) (dispatch : RuntimeQueueDispatch) : Bool × Store :=
  match retryGeneration dispatch.payload with
  | .error _ => (false, queue)
  | .ok generation =>
    if generation = 0 then enqueueGeneration queue dispatch generation
    else
      match RedisQueue.retryDeadLetterScript queue cfg.tenantId dispatch.taskId with
      | (.ok _, queue) => (true, queue)
      | (.refused reason, queue) =>
        if reason = "task already pending" ∨ reason = "task already processing" then (true, queue)
        else if reason ≠ "dead-letter entry not found" then (false, queue)
        else enqueueGeneration queue dispatch generation
      | (.error _, queue) => (false, queue)

/-- Publish a dispatch that is still pending and record that it is published. -/
def publishDispatch (w : World) (dispatchId : String) : World :=
  match w.db.dispatches.get dispatchId with
  | none => w
  | some dispatch =>
    if dispatch.status ≠ .pending then w
    else
      match publish cfg w.queue dispatch with
      | (true, queue) => ⟨(acknowledgePublication w.db.open dispatchId).db, queue⟩
      | (false, queue) => { w with queue }

/-- Commit a session and publish the dispatches it has scheduled. -/
def afterCommit (w : World) (s : Session) : World :=
  s.intents.foldl (publishDispatch cfg) { w with db := s.db }

/-- Commit what a transaction leaves, or nothing when it raises. -/
def transact (w : World) : Except Error Session → World
  | .ok s => afterCommit cfg w s
  | .error _ => w

/-- A turn of `publish_due`. -/
def publishDue (w : World) (dispatchId : String) : World :=
  match w.db.dispatches.get dispatchId with
  | none => w
  | some dispatch =>
    let queued : Bool := match w.db.tasks.get dispatch.taskId with
      | none => false
      | some task => task.tenantId = dispatch.tenantId && task.status = .queued
    if queued then publishDispatch cfg w dispatchId
    else { w with db := (dropDueDispatch w.db.open dispatchId).db }

/-- A turn of `reconcile_cancelled`. -/
def reconcileCancelled (w : World) (dispatchId : String) : World :=
  match w.db.dispatches.get dispatchId with
  | none => w
  | some dispatch =>
    if dispatch.status = .cancelled && dispatch.published && !dispatch.cleaned then
      match RedisQueue.cancelPendingTaskScript w.queue dispatch.taskId with
      | (.ok _, queue) => ⟨(acknowledgeCleanup w.db.open dispatchId).db, queue⟩
      | (_, queue) => { w with queue }
    else w

end Publication

section Services
variable (cfg : Config) (env : Env) (amb : Ambient) (w : World)

/-- A method of the worker whose commit is followed by a call of the queue for the task of its
lease. -/
def finishWork (leaseId : String) (result : Except Error Session)
    (queueCall : String → Store → Store) : World :=
  match w.db.leases.get leaseId, result with
  | some lease, .ok s =>
    let w := afterCommit cfg w s
    { w with queue := queueCall lease.taskId w.queue }
  | _, _ => w

/-- The mission intake of the task is a planner clarification. -/
def staleIntake (clarification : Fields → Bool) (taskId : String) : Bool :=
  match w.db.tasks.get taskId with
  | none => false
  | some task =>
    ((getMissionForTenant w.db.open amb.now task.missionId cfg.tenantId).map
      fun m => clarification m.2.metadata).getD false

/-- `claim_next_task` after the queue has handed over a message; `recent` says that the message
is younger than the visibility grace. -/
def claimMessage (clarification : Fields → Bool) (taskId workerId leaseId : String)
    (recent : Bool) : World :=
  let complete (w : World) : World :=
    { w with queue := (RedisQueue.completeOwnerScript w.queue taskId workerId).2 }
  let release (w : World) : World :=
    { w with queue := (RedisQueue.releaseOwnerScript w.queue taskId workerId).2 }
  match claimTask env amb w.db.open clarification cfg.tenantId taskId workerId leaseId with
  | .error _ => if staleIntake cfg amb w clarification taskId then w else release w
  | .ok (_, .notFound) =>
    if recent then release w
    else
      match RedisQueue.failOwnerScript w.queue taskId workerId
        "claimed queue payload has no matching tenant execution task" amb.now with
      | (.ok _, queue) => { w with queue }
      | (_, queue) => release { w with queue }
  | .ok (_, .terminal) => complete w
  | .ok (s, .stale) | .ok (s, .deferred) => complete (afterCommit cfg w s)
  | .ok (s, .claimed) => afterCommit cfg w s

/-- `claim_next_task`. -/
def claimNextTask (clarification : Fields → Bool) (workerId leaseId : String) (recent : Bool) :
    World :=
  match RedisQueue.claimNextTaskScript w.queue workerId cfg.heartbeatTtlSeconds with
  | (.ok raw, queue) =>
    match RedisQueue.decodeMessage raw with
    | none => { w with queue }
    | some message =>
      claimMessage cfg env amb { w with queue } clarification message.taskId workerId leaseId recent
  | (_, queue) => { w with queue }

/-- A transaction that commits only when the queue has accepted its call. -/
def commitAccepted (result : Except Error Session) (queueCall : RedisQueue.Reply String × Store) :
    World :=
  match result with
  | .error _ => w
  | .ok s =>
    match queueCall with
    | (.ok _, queue) => ⟨s.db, queue⟩
    | (_, queue) => { w with queue }

/-- `heartbeat`. -/
def heartbeatLease (leaseId workerId : String) : World :=
  match w.db.leases.get leaseId with
  | none => w
  | some lease =>
    commitAccepted w (heartbeat w.db.open cfg.tenantId leaseId workerId)
      (RedisQueue.heartbeatOwnerScript w.queue lease.taskId workerId cfg.heartbeatTtlSeconds)

/-- `release`. -/
def releaseLease (leaseId workerId : String) : World :=
  match w.db.leases.get leaseId with
  | none => w
  | some lease =>
    commitAccepted w (release w.db.open cfg.tenantId leaseId workerId)
      (RedisQueue.releaseOwnerScript w.queue lease.taskId workerId)

/-- `mark_dead_letter`. -/
def deadLetterTask (taskId reason : String) : World :=
  commitAccepted w (markDeadLetter w.db.open cfg.tenantId taskId)
    (RedisQueue.deadLetterScript w.queue cfg.tenantId taskId "" reason amb.now)

/-- A turn of `recover_expired_leases` on a lease that has outlived its heartbeat. -/
def recoverExpired (maxRetries : ℕ) (leaseId reason : String) : World :=
  match w.db.leases.get leaseId with
  | none => w
  | some lease =>
    match w.db.tasks.get lease.taskId with
    | none => w
    | some task =>
      let recovered := recoverLease w.db.open maxRetries leaseId
      if !lease.status.live then w
      else
        match recoveryMove task maxRetries with
        | .none => transact cfg w recovered
        | .deadLetter =>
          commitAccepted w recovered (RedisQueue.deadLetterScript w.queue cfg.tenantId task.id
            lease.holderIdentity reason amb.now)
        | .requeue =>
          commitAccepted w recovered
            (RedisQueue.recoverOwnerScript w.queue task.id lease.holderIdentity)

/-- A turn of `_reconcile_queue_processing_payloads`; `holder` is the latest lease holder. -/
def reconcileProcessing (taskId holder reason : String) : World :=
  match w.db.tasks.get taskId with
  | none => w
  | some task =>
    if task.tenantId ≠ cfg.tenantId ∨ hasActiveLease w.db cfg.tenantId taskId ∨
        w.queue.processingPayloads.has taskId = false then w
    else
      match task.status with
      | .completed | .blocked | .cancelled =>
        { w with queue := (RedisQueue.completeOwnerScript w.queue taskId holder).2 }
      | .failed | .deadLettered =>
        { w with queue :=
          (RedisQueue.deadLetterScript w.queue cfg.tenantId taskId "" reason amb.now).2 }
      | _ =>
        commitAccepted w (requeueOrphan w.db.open cfg.tenantId taskId)
          (RedisQueue.recoverOwnerScript w.queue taskId "runtime_maintainer")

end Services

inductive Operation
  | createMission (mission : Mission)
  | createTask (taskId missionId : String) (fleetId branchId : Option String) (metadata : Fields)
  | queueTask (taskId : String) (gate : Gate) (withinQuota : Bool)
  | approveReviewAndQueue (taskId : String) (gate : Gate) (withinQuota : Bool) (grant : Fields)
      (receipt : Fields → Except Error Fields)
  | markDeadLetter (taskId reason : String)
  | retryTask (taskId : String) (gate : Gate)
  | claimNextTask (clarification : Fields → Bool) (workerId leaseId : String) (recent : Bool)
  | heartbeat (leaseId workerId : String)
  | startExecution (leaseId workerId : String)
  | complete (leaseId workerId : String) (taskOutput : Option Fields)
      (outputReason : Option String) (runtimeMetadata : Option Fields)
  | blockCompletionFailure (leaseId workerId : String)
  | fail (leaseId workerId reason evidenceId : String)
  | release (leaseId workerId : String)
  | cancelTask (taskId reason : String)
  | finishCancelMission (missionId reason : String)
  | recoverExpired (maxRetries : ℕ) (leaseId reason : String)
  | reconcileProcessing (taskId holder reason : String)
  | publishDue (dispatchId : String)
  | reconcileCancelled (dispatchId : String)
  | expireLeaseKey (taskId : String)

/-- An operation with its time and the identifiers the database draws: they are UUID texts and
have no colon. -/
structure Turn where
  amb : Ambient
  plain : ∀ taskId, ':' ∉ (amb.dispatchId taskId).toList
  operation : Operation

/-- The world one operation leaves. -/
def World.step (cfg : Config) (env : Env) (w : World) (turn : Turn) : World :=
  let amb := turn.amb
  let tenantId := cfg.tenantId
  let run (transaction : Transaction) := Call.run env ⟨amb, transaction⟩ w.db
  match turn.operation with
  | .createMission mission => transact cfg w (run (.createMission { mission with tenantId }))
  | .createTask taskId missionId fleetId branchId metadata =>
      transact cfg w (run (.createTask
        ⟨taskId, tenantId, missionId, fleetId, branchId, .planned, metadata, 0⟩))
  | .queueTask taskId gate withinQuota =>
      transact cfg w (run (.queueTask tenantId taskId gate withinQuota))
  | .approveReviewAndQueue taskId gate withinQuota grant receipt =>
      transact cfg w (run (.approveReviewAndQueue tenantId taskId gate withinQuota grant receipt))
  | .markDeadLetter taskId reason => deadLetterTask cfg amb w taskId reason
  | .retryTask taskId gate => transact cfg w (run (.retryTask tenantId taskId gate))
  | .claimNextTask clarification workerId leaseId recent =>
      claimNextTask cfg env amb w clarification workerId leaseId recent
  | .heartbeat leaseId workerId => heartbeatLease cfg w leaseId workerId
  | .startExecution leaseId workerId => transact cfg w (run (.start tenantId leaseId workerId))
  | .complete leaseId workerId taskOutput outputReason runtimeMetadata =>
      finishWork cfg w leaseId
        (run (.complete tenantId leaseId workerId taskOutput outputReason runtimeMetadata))
        fun taskId queue => (RedisQueue.completeOwnerScript queue taskId workerId).2
  | .blockCompletionFailure leaseId workerId =>
      finishWork cfg w leaseId (run (.blockCompletionFailure tenantId leaseId workerId))
        fun taskId queue => (RedisQueue.completeOwnerScript queue taskId workerId).2
  | .fail leaseId workerId reason evidenceId =>
      finishWork cfg w leaseId (run (.fail tenantId leaseId workerId reason evidenceId))
        fun taskId queue => (RedisQueue.failOwnerScript queue taskId workerId reason amb.now).2
  | .release leaseId workerId => releaseLease cfg w leaseId workerId
  | .cancelTask taskId reason => transact cfg w (run (.cancelTask tenantId taskId reason))
  | .finishCancelMission missionId reason =>
      transact cfg w (run (.finishCancelMission tenantId missionId reason))
  | .recoverExpired maxRetries leaseId reason =>
      recoverExpired cfg amb w maxRetries leaseId reason
  | .reconcileProcessing taskId holder reason =>
      reconcileProcessing cfg amb w taskId holder reason
  | .publishDue dispatchId => publishDue cfg w dispatchId
  | .reconcileCancelled dispatchId => reconcileCancelled w dispatchId
  | .expireLeaseKey taskId => { w with queue := w.queue.dropLease taskId }

end Ajenda.Runtime
