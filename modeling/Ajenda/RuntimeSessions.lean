import Ajenda.RedisQueueClaims
import Ajenda.RuntimeCluster

/-!
# Processes that keep their sessions

A `Deployment` is the committed rows of a tenant, its queue and the database sessions of its
processes. A session keeps the rows it has read or written over its commits, as long as the
process refers to them, and does not read them again. A transaction runs on the rows as its
session sees them when it opens and commits over what is committed by then. The queue call that
a commit waits for is a step of the transaction; all other calls of the queue, and the expiry of
its keys, are steps of their own, in any order.
-/
namespace Ajenda.Runtime
open JsonValue KeyedRows TransitionSystem
open RedisQueue (Config Store)

section Merge

/-- The columns a transaction has changed. A claim has flushed the status of its task even when
it gives the task back. -/
def mergeChanged (own : Option String) : RowMerge ExecutionTask where
  apply b n c :=
    if n = b then c
    else
      { id := c.id
        tenantId := column b.tenantId n.tenantId c.tenantId
        missionId := column b.missionId n.missionId c.missionId
        fleetId := column b.fleetId n.fleetId c.fleetId
        branchId := column b.branchId n.branchId c.branchId
        status := if own = some c.id then n.status else column b.status n.status c.status
        metadata := column b.metadata n.metadata c.metadata
        retryCount := column b.retryCount n.retryCount c.retryCount }
  key_apply b n c := by split_ifs <;> rfl
  same b c := if_pos rfl

/-- The task a claim takes. -/
def Transaction.own : Transaction → Option String
  | .claim _ _ taskId _ _ => some taskId
  | _ => none

/-- Commit what a transaction made of `base` over the rows `cur`; a taken key raises. -/
def Db.commitOver (own : Option String) (base new cur : Db) : Option Db := do
  let missions ← Rows.merge mergeMission base.missions new.missions cur.missions
  let tasks ← Rows.merge (mergeChanged own) base.tasks new.tasks cur.tasks
  let leases ← Rows.merge mergeLease base.leases new.leases cur.leases
  let dispatches ← Rows.merge mergeDispatch base.dispatches new.dispatches cur.dispatches
  pure { missions, tasks, leases, dispatches
         evidence := cur.evidence ++ new.evidence.drop base.evidence.length
         lineage := cur.lineage ++ new.lineage.drop base.lineage.length }

/-- The committed rows as a session sees them that holds some of them. -/
def Db.seen (kept : String → Bool) (held cur : Db) : Db :=
  { cur with
    missions := Rows.seen kept held.missions cur.missions
    tasks := Rows.seen kept held.tasks cur.tasks
    leases := Rows.seen kept held.leases cur.leases
    dispatches := Rows.seen kept held.dispatches cur.dispatches }

variable {own : Option String} {base new cur db : Db}

theorem commitOver_eq_some (h : Db.commitOver own base new cur = some db) :
    Rows.merge (mergeChanged own) base.tasks new.tasks cur.tasks = some db.tasks ∧
      Rows.merge mergeLease base.leases new.leases cur.leases = some db.leases := by
  simp only [Db.commitOver, bind, Option.bind_eq_some_iff] at h
  obtain ⟨missions, -, tasks, htasks, leases, hleases, dispatches, -, hdb⟩ := h
  obtain rfl := Option.some.inj hdb
  exact ⟨htasks, hleases⟩

theorem commitOver_same (own : Option String) (base cur : Db) :
    Db.commitOver own base base cur = some cur := by
  simp [Db.commitOver, Rows.merge_same]

/-- A commit writes the metadata of a task as a whole, when it has changed. -/
theorem mergeChanged_metadata (own : Option String) (b n c : ExecutionTask) :
    ((mergeChanged own).apply b n c).metadata = column b.metadata n.metadata c.metadata := by
  simp only [mergeChanged]
  split_ifs with h
  · rw [h, column_same]
  · rfl
  · rfl

theorem mergeChanged_retryCount (own : Option String) (b n c : ExecutionTask) :
    ((mergeChanged own).apply b n c).retryCount =
      column b.retryCount n.retryCount c.retryCount := by
  simp only [mergeChanged]
  split_ifs with h
  · rw [h, column_same]
  · rfl
  · rfl

end Merge

/-- A transaction that has not committed: the rows it has read, the session it has made of them,
and whether the queue has accepted the call that the commit waits for. -/
structure Pending where
  call : Call
  base : Db
  session : Session
  accepted : Bool

/-- The session of a process: the rows it holds and its transaction. -/
structure Process where
  held : Db
  pending : Option Pending

/-- A new session, or one that has been rolled back. -/
def Process.fresh : Process := ⟨.empty, none⟩

structure Deployment where
  db : Db
  queue : Store
  processes : String → Process

def Deployment.empty : Deployment := ⟨.empty, .empty, fun _ => .fresh⟩

/-- A step of a process or of the queue. `kept` are the keys of the rows that the process still
refers to. -/
inductive Event
  | load (process : String) (kept : String → Bool)
  | open (process : String) (call : Call) (kept : String → Bool)
  | ask (process reason : String)
  | commit (process : String)
  | close (process : String)
  | queue (op : RedisQueue.Op)

section Waiting

/-- The states in which an orphaned payload is requeued. -/
def ExecutionTaskState.requeued : ExecutionTaskState → Bool
  | .running | .claimed | .recovering | .queued => true
  | _ => false

/-- `_reconcile_queue_processing_payloads` requeues the payload of the task. -/
def orphanRequeued (db : Db) (tenantId taskId : String) : Bool :=
  match db.tasks.get taskId with
  | none => false
  | some task =>
    task.tenantId = tenantId && !hasActiveLease db tenantId taskId && task.status.requeued

/-- The queue call that the commit of a transaction waits for. -/
def Transaction.awaits (db : Db) (now reason : String) : Transaction → Option RedisQueue.Op
  | .heartbeat _ leaseId workerId =>
      (db.leases.get leaseId).map fun lease => .heartbeat lease.taskId workerId
  | .release _ leaseId workerId =>
      (db.leases.get leaseId).map fun lease => .release lease.taskId workerId
  | .markDeadLetter _ taskId => some (.deadLetter taskId "" reason now)
  | .recoverLease maxRetries leaseId => do
      let lease ← db.leases.get leaseId
      let task ← db.tasks.get lease.taskId
      if !lease.status.live then none
      else
        match recoveryMove task maxRetries with
        | .none => none
        | .deadLetter => some (.deadLetter task.id lease.holderIdentity reason now)
        | .requeue => some (.recover task.id lease.holderIdentity)
  | .requeueOrphan tenantId taskId =>
      if orphanRequeued db tenantId taskId then some (.recover taskId "runtime_maintainer") else none
  | _ => none

/-- The `ok` of a call that a commit waits for. -/
def accepts (cfg : Config) (queue : Store) : RedisQueue.Op → Bool
  | .heartbeat taskId workerId =>
      (RedisQueue.heartbeatOwnerScript queue taskId workerId cfg.heartbeatTtlSeconds).1.isOk
  | .release taskId workerId => (RedisQueue.releaseOwnerScript queue taskId workerId).1.isOk
  | .deadLetter taskId owner reason movedAt =>
      (RedisQueue.deadLetterScript queue cfg.tenantId taskId owner reason movedAt).1.isOk
  | .recover taskId workerId => (RedisQueue.recoverOwnerScript queue taskId workerId).1.isOk
  | _ => false

end Waiting

section Steps
variable (cfg : Config) (env : Env) (d : Deployment) (p : String)

def Deployment.setProcess (process : Process) : Deployment :=
  { d with processes := Function.update d.processes p process }

/-- The committed rows as the session of the process sees them. -/
def Deployment.seen (kept : String → Bool) : Db := Db.seen kept (d.processes p).held d.db

/-- Open a transaction; a raise rolls the session back. -/
def openCall (call : Call) (kept : String → Bool) : Deployment :=
  let base := d.seen p kept
  match call.run env base with
  | .error _ => d.setProcess p .fresh
  | .ok session =>
    let accepted := (call.transaction.awaits base call.amb.now "").isNone
    d.setProcess p ⟨base, some ⟨call, base, session, accepted⟩⟩

/-- Make the queue call that the commit waits for; a refusal rolls the session back. -/
def askQueue (tx : Pending) (reason : String) : Deployment :=
  match tx.call.transaction.awaits tx.base tx.call.amb.now reason with
  | none => d
  | some op =>
    let d' := { d with queue := RedisQueue.step cfg d.queue op }
    if accepts cfg d.queue op then
      d'.setProcess p ⟨tx.base, some { tx with accepted := true }⟩
    else d'.setProcess p .fresh

/-- What the transaction makes of the rows committed by now. -/
def Pending.merged (tx : Pending) (cur : Db) : Option Db :=
  Db.commitOver tx.call.transaction.own tx.base tx.session.db cur

/-- Commit over the rows that are committed now; the session keeps its rows. -/
def commitPending (tx : Pending) : Deployment :=
  match tx.merged d.db with
  | some db => { d with db }.setProcess p ⟨tx.session.db, none⟩
  | none => d.setProcess p .fresh

/-- A step that its process cannot make does nothing. -/
def Deployment.step : Event → Deployment
  | .load p kept =>
    match (d.processes p).pending with
    | none => d.setProcess p ⟨d.seen p kept, none⟩
    | some _ => d
  | .open p call kept =>
    match (d.processes p).pending with
    | none => openCall env d p call kept
    | some _ => d
  | .ask p reason =>
    match (d.processes p).pending with
    | none => d
    | some tx => if tx.accepted then d else askQueue cfg d p tx reason
  | .commit p =>
    match (d.processes p).pending with
    | none => d
    | some tx => if tx.accepted then commitPending d p tx else d
  | .close p => d.setProcess p .fresh
  | .queue op => { d with queue := RedisQueue.step cfg d.queue op }

end Steps

/-! ## What a step can do -/

section Inversion
variable {cfg : Config} {env : Env} {d : Deployment}

/-- Only the commit of a transaction that the queue has accepted writes rows. -/
theorem step_db (cfg : Config) (env : Env) (d : Deployment) (e : Event) :
    (d.step cfg env e).db = d.db ∨ ∃ p tx db, e = .commit p ∧
      (d.processes p).pending = some tx ∧ tx.accepted = true ∧ tx.merged d.db = some db ∧
      (d.step cfg env e).db = db := by
  cases e with
  | commit p =>
    cases htx : (d.processes p).pending with
    | none => exact .inl (by simp only [Deployment.step, htx])
    | some tx =>
      simp only [Deployment.step, htx, commitPending]
      split_ifs with haccepted
      · cases hmerged : tx.merged d.db with
        | none => exact .inl rfl
        | some db => exact .inr ⟨p, tx, db, rfl, htx, haccepted, hmerged, rfl⟩
      · exact .inl rfl
  | load p kept =>
    left
    simp only [Deployment.step]
    split <;> rfl
  | «open» p call kept =>
    left
    simp only [Deployment.step, openCall]
    split
    · split <;> rfl
    · rfl
  | ask p reason =>
    left
    simp only [Deployment.step, askQueue]
    repeat' split
    all_goals rfl
  | close p => exact .inl rfl
  | queue op => exact .inl rfl

theorem pending_setProcess {P : Pending → Prop} {p : String} {process : Process}
    (h : ∀ q tx, (d.processes q).pending = some tx → P tx)
    (hnew : ∀ tx, process.pending = some tx → P tx) :
    ∀ q tx, ((d.setProcess p process).processes q).pending = some tx → P tx := by
  intro q tx hq
  simp only [Deployment.setProcess, Function.update_apply] at hq
  split_ifs at hq
  · exact hnew tx hq
  · exact h q tx hq

/-- What is known of every transaction when it opens is known until it commits. -/
theorem step_pending {P : Call → Db → Session → Prop} {e : Event}
    (h : ∀ p tx, (d.processes p).pending = some tx → P tx.call tx.base tx.session)
    (hopen : ∀ p call kept session, e = .open p call kept → (d.processes p).pending = none →
      call.run env (d.seen p kept) = .ok session → P call (d.seen p kept) session) :
    ∀ p tx, ((d.step cfg env e).processes p).pending = some tx → P tx.call tx.base tx.session := by
  have hidle : ∀ p held q tx, ((d.setProcess p ⟨held, none⟩).processes q).pending = some tx →
      P tx.call tx.base tx.session := fun p held =>
    pending_setProcess (P := fun tx => P tx.call tx.base tx.session) h fun _ htx => nomatch htx
  cases e with
  | load p kept =>
    simp only [Deployment.step]
    split
    · exact hidle p _
    · exact h
  | «open» p call kept =>
    simp only [Deployment.step, openCall]
    split
    next hnone =>
      split
      · exact hidle p _
      next session hrun =>
        refine pending_setProcess (P := fun tx => P tx.call tx.base tx.session) h fun tx htx => ?_
        obtain rfl := Option.some.inj htx
        exact hopen p call kept session rfl hnone hrun
    · exact h
  | ask p reason =>
    simp only [Deployment.step, askQueue]
    split
    · exact h
    next tx htx =>
      split_ifs
      · exact h
      · split
        · exact h
        · split_ifs
          · refine pending_setProcess (P := fun tx => P tx.call tx.base tx.session) h fun tx' htx' => ?_
            obtain rfl := Option.some.inj htx'
            exact h p tx htx
          · exact hidle p _
  | commit p =>
    simp only [Deployment.step, commitPending]
    split
    · exact h
    · split_ifs
      · split
        · exact hidle p _
        · exact hidle p _
      · exact h
  | close p => exact hidle p _
  | queue op => exact h

end Inversion

end Ajenda.Runtime
