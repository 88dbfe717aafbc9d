import Ajenda.ReadCommitted
import Ajenda.RuntimeWorld

/-!
# Workers whose transactions overlap

A `Cluster` is the world of one tenant with the processes that are in the middle of a call:
workers that claim, start, complete and fail tasks, and the dispatcher that publishes. A call
runs its statements on the rows that are committed when it opens, commits later over what is
committed by then (READ COMMITTED), publishes the dispatches it has scheduled one by one and
makes its call of the queue last; every other process may step in between.
-/
namespace Ajenda.Runtime
open JsonValue KeyedRows
open RedisQueue (Config Store)

section Merge

/-- The columns of a changed task. A changed row has its status written, except by a
re-dispatch, which writes the metadata of a queued row only; the transaction has always
flushed the status of its own task. -/
def mergeTask (own : String) : RowMerge ExecutionTask where
  apply b n c :=
    if n = b then c
    else
      { id := c.id
        tenantId := column b.tenantId n.tenantId c.tenantId
        missionId := column b.missionId n.missionId c.missionId
        fleetId := column b.fleetId n.fleetId c.fleetId
        branchId := column b.branchId n.branchId c.branchId
        status := if c.id ≠ own ∧ b.status = .queued ∧ n.status = .queued then c.status
          else n.status
        metadata := column b.metadata n.metadata c.metadata
        retryCount := column b.retryCount n.retryCount c.retryCount }
  key_apply b n c := by split_ifs <;> rfl
  same b c := if_pos rfl

def mergeMission : RowMerge Mission where
  apply b n c := ⟨c.id, column b.tenantId n.tenantId c.tenantId,
    column b.status n.status c.status, column b.metadata n.metadata c.metadata⟩
  key_apply _ _ _ := rfl
  same b c := by simp

def mergeLease : RowMerge WorkerLease where
  apply b n c := ⟨c.id, column b.tenantId n.tenantId c.tenantId,
    column b.taskId n.taskId c.taskId, column b.status n.status c.status,
    column b.holderIdentity n.holderIdentity c.holderIdentity⟩
  key_apply _ _ _ := rfl
  same b c := by simp

def mergeDispatch : RowMerge RuntimeQueueDispatch where
  apply b n c :=
    { id := c.id
      tenantId := column b.tenantId n.tenantId c.tenantId
      taskId := column b.taskId n.taskId c.taskId
      missionId := column b.missionId n.missionId c.missionId
      fleetId := column b.fleetId n.fleetId c.fleetId
      branchId := column b.branchId n.branchId c.branchId
      payload := column b.payload n.payload c.payload
      status := column b.status n.status c.status
      published := column b.published n.published c.published
      cleaned := column b.cleaned n.cleaned c.cleaned
      createdAt := column b.createdAt n.createdAt c.createdAt }
  key_apply _ _ _ := rfl
  same b c := by simp

/-- Commit what a transaction made of `base` over the rows `cur`; a taken key raises. -/
def Db.merge (own : String) (base new cur : Db) : Option Db := do
  let missions ← Rows.merge mergeMission base.missions new.missions cur.missions
  let tasks ← Rows.merge (mergeTask own) base.tasks new.tasks cur.tasks
  let leases ← Rows.merge mergeLease base.leases new.leases cur.leases
  let dispatches ← Rows.merge mergeDispatch base.dispatches new.dispatches cur.dispatches
  pure { missions, tasks, leases, dispatches
         evidence := cur.evidence ++ new.evidence.drop base.evidence.length
         lineage := cur.lineage ++ new.lineage.drop base.lineage.length }

end Merge

/-- A transaction that has not committed: the rows it read, the session it made of them, its
own task, and its queue calls after the commit and after a failure of the commit. -/
structure OpenTransaction where
  base : Db
  session : Session
  own : String
  last : Option RedisQueue.Op
  abort : Option RedisQueue.Op

/-- Where a process stands in its call. -/
inductive Flight
  | message (taskId workerId : String)
  | opened (tx : OpenTransaction)
  | publishing (dispatchIds : List String) (last : Option RedisQueue.Op)
  | published (dispatch : RuntimeQueueDispatch) (dispatchIds : List String)
      (last : Option RedisQueue.Op)

structure Cluster where
  world : World
  flights : String → Option Flight

def Cluster.idle (world : World) : Cluster := ⟨world, fun _ => none⟩

def Cluster.setFlight (c : Cluster) (process : String) (flight : Option Flight) : Cluster :=
  { c with flights := fun p => if p = process then flight else c.flights p }

def Cluster.setWorld (c : Cluster) (world : World) : Cluster := { c with world }

inductive Action
  | take (workerId : String)
  | claim (leaseId : String) (recent : Bool)
  | start (leaseId workerId : String)
  | complete (leaseId workerId : String) (taskOutput : Option Fields)
      (outputReason : Option String) (runtimeMetadata : Option Fields)
  | fail (leaseId workerId reason evidenceId : String)
  | dispatch (dispatchId : String)
  | commit
  | publish
  | acknowledge
  | finish
  deriving DecidableEq

/-- A step of one process, with the time and the identifiers the database draws. -/
structure Move where
  process : String
  amb : Ambient
  plain : ∀ taskId, ':' ∉ (amb.dispatchId taskId).toList
  action : Action

section Steps
variable (cfg : Config) (env : Env) (c : Cluster) (p : String)

/-- `claim_next` of the queue. -/
def takeMessage (workerId : String) : Cluster :=
  match RedisQueue.claimNextTaskScript c.world.queue workerId cfg.heartbeatTtlSeconds with
  | (.ok raw, queue) =>
    let c := c.setWorld { c.world with queue }
    match RedisQueue.decodeMessage raw with
    | none => c
    | some message => c.setFlight p (some (.message message.taskId workerId))
  | (_, queue) => c.setWorld { c.world with queue }

/-- The transaction of `claim_next_task` on a mission without planner clarification. -/
def openClaim (amb : Ambient) (taskId workerId leaseId : String) (recent : Bool) : Cluster :=
  let release : RedisQueue.Op := .release taskId workerId
  let complete : RedisQueue.Op := .complete taskId workerId
  match claimTask env amb c.world.db.open (fun _ => false) cfg.tenantId taskId workerId leaseId with
  | .error _ => c.setFlight p (some (.publishing [] (some release)))
  | .ok (_, .notFound) =>
    let quarantine : RedisQueue.Op := .fail taskId workerId
      "claimed queue payload has no matching tenant execution task" amb.now
    c.setFlight p (some (.publishing [] (some (if recent then release else quarantine))))
  | .ok (_, .terminal) => c.setFlight p (some (.publishing [] (some complete)))
  | .ok (session, .stale) | .ok (session, .deferred) =>
    c.setFlight p (some (.opened ⟨c.world.db, session, taskId, some complete, some release⟩))
  | .ok (session, .claimed) =>
    c.setFlight p (some (.opened ⟨c.world.db, session, taskId, none, some release⟩))

/-- The transaction of a method that works on the task of a lease. -/
def openWork (leaseId : String) (result : Except Error Session)
    (last : String → Option RedisQueue.Op) : Cluster :=
  match c.world.db.leases.get leaseId, result with
  | some lease, .ok session =>
    c.setFlight p (some (.opened ⟨c.world.db, session, lease.taskId, last lease.taskId, none⟩))
  | _, _ => c

/-- Commit over the rows that are committed now. -/
def commitOpened (tx : OpenTransaction) : Cluster :=
  match Db.merge tx.own tx.base tx.session.db c.world.db with
  | some db =>
    (c.setWorld { c.world with db }).setFlight p (some (.publishing tx.session.intents tx.last))
  | none => c.setFlight p (some (.publishing [] tx.abort))

/-- Hand a committed dispatch that is still pending to the queue. -/
def publishNext (dispatchId : String) (dispatchIds : List String) (last : Option RedisQueue.Op) :
    Cluster :=
  match c.world.db.dispatches.get dispatchId with
  | none => c.setFlight p (some (.publishing dispatchIds last))
  | some dispatch =>
    if dispatch.status ≠ .pending then c.setFlight p (some (.publishing dispatchIds last))
    else
      match publish cfg c.world.queue dispatch with
      | (true, queue) => (c.setWorld { c.world with queue }).setFlight p
          (some (.published dispatch dispatchIds last))
      | (false, queue) => (c.setWorld { c.world with queue }).setFlight p
          (some (.publishing dispatchIds last))

/-- Record a publication; the row may have changed since it was read. -/
def acknowledgePublished (dispatch : RuntimeQueueDispatch) (dispatchIds : List String)
    (last : Option RedisQueue.Op) : Cluster :=
  let s := c.world.db.open
  let s := match s.db.dispatches.get dispatch.id with
    | none => s
    | some row => s.saveDispatch { row with status := .published, published := true }
  (c.setWorld { c.world with db := s.db }).setFlight p (some (.publishing dispatchIds last))

/-- The queue call that ends a method. -/
def finishCall (last : Option RedisQueue.Op) : Cluster :=
  (match last with
    | none => c
    | some op => c.setWorld { c.world with queue := RedisQueue.step cfg c.world.queue op }).setFlight
    p none

end Steps

/-- The cluster one step of a process leaves; a step that the process cannot make does
nothing. -/
def Cluster.step (cfg : Config) (env : Env) (c : Cluster) (m : Move) : Cluster :=
  let p := m.process
  let amb := m.amb
  let s := c.world.db.open
  match m.action, c.flights p with
  | .take workerId, none => takeMessage cfg c p workerId
  | .claim leaseId recent, some (.message taskId workerId) =>
      openClaim cfg env c p amb taskId workerId leaseId recent
  | .start leaseId workerId, none =>
      openWork c p leaseId (startExecution s cfg.tenantId leaseId workerId) fun _ => none
  | .complete leaseId workerId taskOutput outputReason runtimeMetadata, none =>
      openWork c p leaseId (complete env amb s cfg.tenantId leaseId workerId taskOutput outputReason
        runtimeMetadata) fun taskId => some (.complete taskId workerId)
  | .fail leaseId workerId reason evidenceId, none =>
      openWork c p leaseId (fail env amb s cfg.tenantId leaseId workerId reason evidenceId)
        fun taskId => some (.fail taskId workerId reason amb.now)
  | .dispatch dispatchId, none => c.setFlight p (some (.publishing [dispatchId] none))
  | .commit, some (.opened tx) => commitOpened c p tx
  | .publish, some (.publishing (dispatchId :: dispatchIds) last) =>
      publishNext cfg c p dispatchId dispatchIds last
  | .acknowledge, some (.published dispatch dispatchIds last) =>
      acknowledgePublished c p dispatch dispatchIds last
  | .finish, some (.publishing [] last) => finishCall cfg c p last
  | _, _ => c

end Ajenda.Runtime
