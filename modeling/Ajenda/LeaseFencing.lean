import Ajenda.LeaseFrame
import Ajenda.RuntimeSessions

/-!
# Fencing by leases

The methods that take a lease check its owner and the state of the task, as their session sees
them, not the state of the lease. They are fenced in the runs in which no worker presents a lease
that it sees it has lost, and commits find the recorded leases and the lease states they depend
on as they were read. In such runs a live lease is the one its task records.
-/
namespace Ajenda.Runtime
open JsonValue KeyedRows TransitionSystem
open RedisQueue (Config Store)

section Claims
variable {env : Env} {amb : Ambient} {s s' : Session}

theorem takeLease_eq_ok {task task' : ExecutionTask} {lease : WorkerLease}
    {tenantId workerId leaseId : String}
    (h : takeLease s task tenantId workerId leaseId = .ok (s', task', lease)) :
    assertNoActiveLease s tenantId task.id = .ok () ∧ ExecutionTaskState.claimed ∈ taskAllowed
      task.status ∧ lease = ⟨leaseId, tenantId, task.id, .claimed, workerId⟩ ∧
      task' = (task.withStatus .claimed).withMetadata
        (Fields.set task.metadata "worker_lease_id" (.str leaseId)) ∧
      ∃ s₁, addLease s lease = .ok s₁ ∧ s' = s₁.saveTask task' := by
  obtain ⟨⟨⟩, hassert, hrest⟩ := bind_eq_ok.mp h
  obtain ⟨task₁, htask₁, hrest⟩ := bind_eq_ok.mp hrest
  obtain ⟨hallowed, rfl⟩ := transitionTask_eq_ok.mp htask₁
  obtain ⟨s₁, hadd, hrest⟩ := bind_eq_ok.mp hrest
  obtain ⟨rfl, hpair⟩ := Prod.mk.inj (Except.ok.inj hrest)
  obtain ⟨rfl, rfl⟩ := Prod.mk.inj hpair
  exact ⟨hassert, hallowed, rfl, rfl, s₁, hadd, rfl⟩

theorem addLease_eq_ok {lease : WorkerLease} (h : addLease s lease = .ok s') :
    ∃ leases, s.db.leases.insert lease = some leases ∧
      s' = { s with db := { s.db with leases } } := by
  unfold addLease at h
  split at h
  · cases h
  next leases hinsert => exact ⟨leases, hinsert, (Except.ok.inj h).symm⟩

theorem deferForDependencies_eq_ok {task : ExecutionTask} {lease : WorkerLease}
    {pending : List String} (h : deferForDependencies amb s task lease pending = .ok s') :
    ∃ task', task'.id = task.id ∧ task'.tenantId = task.tenantId ∧ task'.status = .queued ∧
      s' = (s.saveLease (lease.withStatus .released)).saveTask task' := by
  obtain ⟨lease', hlease', hrest⟩ := bind_eq_ok.mp h
  obtain rfl := transitionLeaseToReleased_eq_ok hlease'
  obtain ⟨task₁, htask₁, hrest⟩ := bind_eq_ok.mp hrest
  obtain ⟨-, rfl⟩ := transitionTask_eq_ok.mp htask₁
  obtain rfl := Except.ok.inj hrest
  refine ⟨(task.withStatus .queued).withMetadata (Fields.pop (Fields.set task.metadata
    "dependency_deferral" (.obj [("pending_keys", .arr (pending.map .str)),
      ("deferred_at", .str amb.now)])) "worker_lease_id"), ?_, ?_, ?_, ?_⟩ <;> rfl

/-- A claim has inserted a lease, which its task records while it is live, and has written no
other task. -/
structure ClaimFrame (db db' : Db) (taskId leaseId : String) : Prop where
  task : ∃ t, db.tasks.get taskId = some t
  tasks : ∀ id, id ≠ taskId → db'.tasks.get id = db.tasks.get id
  leases : ∀ id, id ≠ leaseId → db'.leases.get id = db.leases.get id
  fresh : db.leases.get leaseId = none
  lease : ∃ l t, db'.leases.get leaseId = some l ∧ l.taskId = taskId ∧
    db'.tasks.get taskId = some t ∧ (l.status.live = true → t.currentLease = some (.str leaseId))

theorem loaded_db (s : Session) (now missionId tenantId : String) :
    (((getMissionForTenant s now missionId tenantId).map Prod.fst).getD s).db =
      { s.db with missions :=
        (((getMissionForTenant s now missionId tenantId).map Prod.fst).getD s).db.missions } := by
  unfold getMissionForTenant
  split
  · rfl
  · split_ifs <;> rfl

theorem cancelStaleTask_leaseFrame {task : ExecutionTask}
    (hget : s.db.tasks.get task.id = some task) (h : cancelStaleTask env amb s task = .ok s') :
    LeaseFrame s.db s'.db := by
  obtain ⟨task', htask', hrest⟩ := bind_eq_ok.mp h
  obtain ⟨-, rfl⟩ := transitionTask_eq_ok.mp htask'
  obtain ⟨s₁, hrollup, hrest⟩ := bind_eq_ok.mp hrest
  obtain rfl := Except.ok.inj hrest
  have hsaved : LeaseFrame s.db (s.saveTask (task.withStatus .cancelled)).db :=
    .saveTask hget rfl rfl rfl
  exact (hsaved.trans (rollup_leaseFrame hrollup)).trans (cancel_leaseFrame _ _)

/-- What a claim has inserted and written. -/
theorem takeLease_rows {task task' : ExecutionTask} {lease : WorkerLease}
    {tenantId workerId leaseId : String} (hget : s.db.tasks.get task.id = some task)
    (h : takeLease s task tenantId workerId leaseId = .ok (s', task', lease)) :
    s'.db.tasks.get task'.id = some task' ∧ s'.db.leases.get lease.id = some lease ∧
      task'.id = lease.taskId ∧ task'.currentLease = some (.str lease.id) := by
  obtain ⟨-, -, rfl, htask', s₁, hadd, rfl⟩ := takeLease_eq_ok h
  obtain ⟨leases, hinsert, rfl⟩ := addLease_eq_ok hadd
  have hid : task'.id = task.id := by rw [htask']; rfl
  refine ⟨?_, ?_, hid, ?_⟩
  · rw [hid]
    exact (get_saveTask (s := { s with db := { s.db with leases } }) hget hid _).trans (if_pos rfl)
  · exact (Rows.get_insert hinsert leaseId).trans (if_pos rfl)
  · rw [htask']
    simp [ExecutionTask.currentLease]

theorem takeLease_frame {task task' : ExecutionTask} {lease : WorkerLease}
    {tenantId workerId leaseId : String} (hget : s.db.tasks.get task.id = some task)
    (h : takeLease s task tenantId workerId leaseId = .ok (s', task', lease)) :
    ClaimFrame s.db s'.db task.id leaseId ∧ lease.id = leaseId ∧ lease.taskId = task.id := by
  obtain ⟨-, hlease, howns, hcurrent⟩ := takeLease_rows hget h
  obtain ⟨-, -, rfl, htask', s₁, hadd, rfl⟩ := takeLease_eq_ok h
  obtain ⟨leases, hinsert, rfl⟩ := addLease_eq_ok hadd
  have hrow := get_saveTask (s := { s with db := { s.db with leases } }) hget howns
  refine ⟨⟨⟨task, hget⟩, fun id hne => (hrow id).trans (if_neg hne), fun id hne => ?_, ?_,
    _, task', hlease, rfl, (hrow _).trans (if_pos rfl), fun _ => hcurrent⟩, rfl, rfl⟩
  · exact (Rows.get_insert hinsert id).trans (if_neg hne)
  · exact Rows.get_of_insert hinsert

/-- A claim that is given back has released its lease. -/
theorem deferForDependencies_frame {db : Db} {task : ExecutionTask} {lease : WorkerLease}
    {pending : List String} {taskId leaseId : String} (hframe : ClaimFrame db s.db taskId leaseId)
    (htask : s.db.tasks.get task.id = some task) (hlease : s.db.leases.get lease.id = some lease)
    (htaskId : task.id = taskId) (hleaseId : lease.id = leaseId) (howns : lease.taskId = taskId)
    (h : deferForDependencies amb s task lease pending = .ok s') :
    ClaimFrame db s'.db taskId leaseId := by
  obtain ⟨task', hid, -, -, rfl⟩ := deferForDependencies_eq_ok h
  have htasks := get_saveTask (s := s.saveLease (lease.withStatus .released)) htask hid
  have hleases := get_saveLease (l := lease.withStatus .released) hlease rfl
  subst htaskId hleaseId
  refine ⟨hframe.task, fun id hne => ?_, fun id hne => ?_, hframe.fresh, lease.withStatus .released,
    task', ?_, howns, ?_, ?_⟩
  · exact ((htasks id).trans (if_neg hne)).trans (hframe.tasks id hne)
  · exact ((hleases id).trans (if_neg hne)).trans (hframe.leases id hne)
  · exact (hleases _).trans (if_pos rfl)
  · exact (htasks _).trans (if_pos rfl)
  · intro hlive
    simp [WorkerLease.withStatus, WorkerLeaseState.live] at hlive

/-- A claim takes its task, or leaves all leases as they are. -/
theorem claimTask_frame {clarification : Fields → Bool} {outcome : ClaimOutcome}
    {tenantId taskId workerId leaseId : String}
    (h : claimTask env amb s clarification tenantId taskId workerId leaseId = .ok (s', outcome)) :
    LeaseFrame s.db s'.db ∨ ClaimFrame s.db s'.db taskId leaseId := by
  unfold claimTask at h
  split at h
  · obtain ⟨rfl, -⟩ := Prod.mk.inj (Except.ok.inj h)
    exact .inl (.refl _)
  next task hget =>
    obtain rfl : task.id = taskId := Rows.key_of_get hget
    dsimp only at h
    have hloaded := loaded_db s amb.now task.missionId tenantId
    set s₀ := ((getMissionForTenant s amb.now task.missionId tenantId).map Prod.fst).getD s
    have hframe₀ : LeaseFrame s.db s₀.db := by
      refine .of_eq ?_ ?_ <;> rw [hloaded]
    have htasks₀ : s₀.db.tasks = s.db.tasks := by rw [hloaded]
    have hleases₀ : s₀.db.leases = s.db.leases := by rw [hloaded]
    have hget₀ : s₀.db.tasks.get task.id = some task := htasks₀ ▸ hget
    split_ifs at h with htenant hterminal hstale
    · obtain ⟨rfl, -⟩ := Prod.mk.inj (Except.ok.inj h)
      exact .inl (.refl _)
    · obtain ⟨rfl, -⟩ := Prod.mk.inj (Except.ok.inj h)
      exact .inl (.refl _)
    · obtain ⟨s₁, hcancel, hrest⟩ := bind_eq_ok.mp h
      obtain ⟨rfl, -⟩ := Prod.mk.inj (Except.ok.inj hrest)
      exact .inl (hframe₀.trans (cancelStaleTask_leaseFrame hget₀ hcancel))
    · obtain ⟨⟨s₁, task₁, lease⟩, htake, hrest⟩ := bind_eq_ok.mp h
      obtain ⟨hframe, hleaseId, howns⟩ := takeLease_frame hget₀ htake
      obtain ⟨htask₁, hlease₁, htaskId, -⟩ := takeLease_rows hget₀ htake
      have hclaimed : ClaimFrame s.db s₁.db task.id leaseId :=
        ⟨⟨task, hget⟩, htasks₀ ▸ hframe.tasks, hleases₀ ▸ hframe.leases, hleases₀ ▸ hframe.fresh,
          hframe.lease⟩
      dsimp only at hrest
      split_ifs at hrest
      · obtain ⟨rfl, -⟩ := Prod.mk.inj (Except.ok.inj hrest)
        exact .inr hclaimed
      · obtain ⟨s₂, hdefer, hrest⟩ := bind_eq_ok.mp hrest
        obtain ⟨rfl, -⟩ := Prod.mk.inj (Except.ok.inj hrest)
        exact .inr (deferForDependencies_frame hclaimed htask₁ hlease₁ (htaskId.trans howns)
          hleaseId howns hdefer)

end Claims

section Transactions
variable {env : Env}

/-- A claim takes its task, and every other transaction leaves all leases to their tasks. -/
theorem run_frame {db : Db} {c : Call} {s' : Session} (h : c.run env db = .ok s') :
    LeaseFrame db s'.db ∨ ∃ taskId leaseId, ClaimFrame db s'.db taskId leaseId := by
  obtain ⟨amb, transaction⟩ := c
  cases transaction with
  | claim clarification tenantId taskId workerId leaseId =>
    obtain ⟨⟨s₁, outcome⟩, hclaim, hrest⟩ := bind_eq_ok.mp h
    obtain rfl := Except.ok.inj hrest
    exact (claimTask_frame (s := db.open) hclaim).imp_right fun h => ⟨taskId, leaseId, h⟩
  | createMission mission => exact .inl (insertMission_leaseFrame (s := db.open) h)
  | createTask task => exact .inl (insertTask_leaseFrame (s := db.open) h)
  | heartbeat tenantId leaseId workerId => exact .inl (heartbeat_leaseFrame (s := db.open) h)
  | start tenantId leaseId workerId =>
    obtain ⟨lease, task, -, ⟨-, rfl⟩ | ⟨-, lease', task', -, -, hhandled⟩⟩ :=
      startExecution_eq_ok env h
    · exact .inl (.refl _)
    · exact .inl (hhandled.leaseFrame (s := db.open))
  | complete tenantId leaseId workerId taskOutput outputReason runtimeMetadata =>
    obtain ⟨lease, task, lease', task', -, -, -, -, -, hhandled⟩ := complete_eq_ok h
    exact .inl (hhandled.leaseFrame (s := db.open))
  | blockCompletionFailure tenantId leaseId workerId =>
    obtain ⟨lease, task, lease', task', -, -, -, -, hhandled⟩ := blockCompletionFailure_eq_ok env h
    exact .inl (hhandled.leaseFrame (s := db.open))
  | fail tenantId leaseId workerId reason evidenceId =>
    obtain ⟨lease, task, lease', task', -, -, -, -, hhandled⟩ := fail_eq_ok h
    exact .inl (hhandled.leaseFrame (s := db.open))
  | release tenantId leaseId workerId =>
    obtain ⟨lease, task, lease', task', -, -, -, -, hhandled⟩ := release_eq_ok env h
    exact .inl (hhandled.leaseFrame (s := db.open))
  | cancelTask tenantId taskId reason => exact .inl (cancelTask_leaseFrame (s := db.open) h)
  | recoverLease maxRetries leaseId => exact .inl (recoverLease_leaseFrame (s := db.open) h)
  | requeueOrphan tenantId taskId => exact .inl (requeueOrphan_leaseFrame (s := db.open) h)
  | queueTask tenantId taskId gate withinQuota =>
    obtain ⟨⟨s₁, ok⟩, hqueue, hrest⟩ := bind_eq_ok.mp h
    obtain rfl := Except.ok.inj hrest
    exact .inl (queueTask_leaseFrame (s := db.open) hqueue)
  | approveReviewAndQueue tenantId taskId gate withinQuota grant receipt =>
    exact .inl (approveReviewAndQueue_leaseFrame (s := db.open) h)
  | markDeadLetter tenantId taskId => exact .inl (markDeadLetter_leaseFrame (s := db.open) h)
  | retryTask tenantId taskId gate => exact .inl (retryTask_leaseFrame (s := db.open) h)
  | finishCancelMission tenantId missionId reason =>
    exact .inl (finishCancelMission_leaseFrame (s := db.open) h)
  | acknowledgePublication dispatchId =>
    obtain rfl := Except.ok.inj h
    exact .inl (dispatchUpdate_leaseFrame db.open dispatchId).1
  | dropDueDispatch dispatchId =>
    obtain rfl := Except.ok.inj h
    exact .inl (dispatchUpdate_leaseFrame db.open dispatchId).2.1
  | acknowledgeCleanup dispatchId =>
    obtain rfl := Except.ok.inj h
    exact .inl (dispatchUpdate_leaseFrame db.open dispatchId).2.2

end Transactions

section Work
variable {env : Env}

/-- A call that starts or ends work: the lease presented and the task state it acts on. -/
structure Work where
  tenantId : String
  leaseId : String
  workerId : String
  accepts : ExecutionTaskState

def Transaction.work : Transaction → Option Work
  | .start tenantId leaseId workerId => some ⟨tenantId, leaseId, workerId, .claimed⟩
  | .complete tenantId leaseId workerId _ _ _ => some ⟨tenantId, leaseId, workerId, .running⟩
  | .blockCompletionFailure tenantId leaseId workerId =>
      some ⟨tenantId, leaseId, workerId, .running⟩
  | .fail tenantId leaseId workerId _ _ => some ⟨tenantId, leaseId, workerId, .running⟩
  | _ => none

/-- The worker presents a lease of its own that it has lost, and the task is in the state that
the call acts on. -/
def staleWork (db : Db) (c : Call) : Bool :=
  match c.transaction.work with
  | none => false
  | some work =>
    match getOwnedLease db.open work.tenantId work.leaseId work.workerId with
    | .error _ => false
    | .ok lease =>
      match getTaskForLease db.open lease with
      | .error _ => false
      | .ok task => task.status = work.accepts && !lease.status.live

/-- Work that succeeds changes nothing or found its task in the state it acts on. -/
theorem work_eq_ok {db : Db} {c : Call} {s' : Session} {work : Work}
    (hwork : c.transaction.work = some work) (hrun : c.run env db = .ok s') :
    (work.accepts = .claimed ∧ s'.db = db) ∨ ∃ lease task, Presented db.open work.tenantId
      work.leaseId work.workerId lease task ∧ task.status = work.accepts := by
  obtain ⟨amb, transaction⟩ := c
  cases transaction with
  | start tenantId leaseId workerId =>
    obtain rfl := Option.some.inj hwork
    obtain ⟨lease, task, hpresented, ⟨-, rfl⟩ | ⟨hclaimed, -⟩⟩ :=
      startExecution_eq_ok env hrun
    · exact .inl ⟨rfl, rfl⟩
    · exact .inr ⟨lease, task, hpresented, hclaimed⟩
  | complete tenantId leaseId workerId taskOutput outputReason runtimeMetadata =>
    obtain rfl := Option.some.inj hwork
    obtain ⟨lease, task, -, -, hpresented, hrunning, -⟩ := complete_eq_ok hrun
    exact .inr ⟨lease, task, hpresented, hrunning⟩
  | blockCompletionFailure tenantId leaseId workerId =>
    obtain rfl := Option.some.inj hwork
    obtain ⟨lease, task, -, -, hpresented, hrunning, -⟩ :=
      blockCompletionFailure_eq_ok env hrun
    exact .inr ⟨lease, task, hpresented, hrunning⟩
  | fail tenantId leaseId workerId reason evidenceId =>
    obtain rfl := Option.some.inj hwork
    obtain ⟨lease, task, -, -, hpresented, hrunning, -⟩ := fail_eq_ok hrun
    exact .inr ⟨lease, task, hpresented, hrunning⟩
  | _ => cases hwork

theorem live_of_not_staleWork {db : Db} {c : Call} {work : Work} {lease : WorkerLease}
    {task : ExecutionTask} (hstale : staleWork db c = false)
    (hwork : c.transaction.work = some work)
    (h : Presented db.open work.tenantId work.leaseId work.workerId lease task)
    (hstatus : task.status = work.accepts) : lease.status.live = true := by
  have howned : getOwnedLease db.open work.tenantId work.leaseId work.workerId = .ok lease := by
    simp [getOwnedLease, h.leaseRow, h.tenant, h.holder]
  have htask : getTaskForLease db.open lease = .ok task := by
    simp [getTaskForLease, h.taskRow]
  simpa [staleWork, hwork, howned, htask, hstatus] using hstale

end Work

section Commits

/-- A live lease is the one its task records. -/
def LeasesRecorded (db : Db) : Prop :=
  ∀ id lease, db.leases.get id = some lease → lease.status.live = true →
    ∃ task, db.tasks.get lease.taskId = some task ∧ task.currentLease = some (.str id)

variable (base new cur : Db)

/-- A task whose metadata the transaction writes still records the lease it has read there. -/
def recordsAsRead : Bool :=
  cur.tasks.list.all fun c => match base.tasks.get c.id, new.tasks.get c.id with
    | some b, some n => n.metadata = b.metadata || c.currentLease = b.currentLease
    | _, _ => true

/-- A lease whose state the transaction writes is still in the state it has read. -/
def statesAsRead : Bool :=
  cur.leases.list.all fun c => match base.leases.get c.id, new.leases.get c.id with
    | some b, some n => n.status = b.status || c.status = b.status
    | _, _ => true

/-- The task of a lease that the transaction inserts has no live lease, and still records the
lease it has read there. -/
def claimsAsRead : Bool :=
  new.leases.list.all fun n => (base.leases.get n.id).isSome ||
    (cur.leases.list.all (fun l => l.taskId ≠ n.taskId || !l.status.live) &&
      (cur.tasks.get n.taskId).map ExecutionTask.currentLease =
        (base.tasks.get n.taskId).map ExecutionTask.currentLease)

/-- A commit finds the leases it depends on as its transaction has read them. -/
def Pending.asRead (tx : Pending) (cur : Db) : Bool :=
  recordsAsRead tx.base tx.session.db cur && statesAsRead tx.base tx.session.db cur &&
    claimsAsRead tx.base tx.session.db cur &&
    match tx.call.transaction.work with
    | none => true
    | some work => cur.leases.get work.leaseId = tx.base.leases.get work.leaseId

variable {base new cur} {db : Db} {own : Option String}

theorem recordsAsRead_get (h : recordsAsRead base new cur = true) {id : String}
    {b n c : ExecutionTask} (hb : base.tasks.get id = some b) (hn : new.tasks.get id = some n)
    (hc : cur.tasks.get id = some c) (hne : n.metadata ≠ b.metadata) :
    c.currentLease = b.currentLease := by
  obtain rfl : c.id = id := Rows.key_of_get hc
  have hall := List.all_eq_true.mp h c (Rows.mem_of_get hc)
  rw [hb, hn] at hall
  simpa [hne] using hall

theorem statesAsRead_get (h : statesAsRead base new cur = true) {id : String}
    {b n c : WorkerLease} (hb : base.leases.get id = some b) (hn : new.leases.get id = some n)
    (hc : cur.leases.get id = some c) (hne : n.status ≠ b.status) : c.status = b.status := by
  obtain rfl : c.id = id := Rows.key_of_get hc
  have hall := List.all_eq_true.mp h c (Rows.mem_of_get hc)
  rw [hb, hn] at hall
  simpa [hne] using hall

theorem currentLease_mergeChanged (b n c : ExecutionTask) :
    ((mergeChanged own).apply b n c).currentLease =
      if n.metadata = b.metadata then c.currentLease else n.currentLease := by
  rw [ExecutionTask.currentLease, mergeChanged_metadata, column]
  split_ifs <;> rfl

/-- A task still records its lease after a commit that keeps the record. -/
theorem record_kept (hmerge : Db.commitOver own base new cur = some db) {id : String}
    {c : ExecutionTask} (hc : cur.tasks.get id = some c)
    (hkept : ∀ b n, base.tasks.get id = some b → new.tasks.get id = some n →
      n.metadata ≠ b.metadata → n.currentLease = c.currentLease) :
    ∃ t, db.tasks.get id = some t ∧ t.currentLease = c.currentLease := by
  have hrow := Rows.get_merge (commitOver_eq_some hmerge).1 hc
  refine ⟨_, hrow, ?_⟩
  split
  next b n hb hn =>
    rw [currentLease_mergeChanged]
    split_ifs with hsame
    · rfl
    · exact hkept b n hb hn hsame
  · rfl

/-- A live lease after a commit was live before, if the transaction brings none to life. -/
theorem live_before (hmerge : Db.commitOver own base new cur = some db)
    (hstates : statesAsRead base new cur = true) {id : String} {b n c lease : WorkerLease}
    (hb : base.leases.get id = some b) (hn : new.leases.get id = some n)
    (hc : cur.leases.get id = some c) (hlease : db.leases.get id = some lease)
    (howns : n.taskId = b.taskId) (hframe : n.status.live = true → b.status.live = true)
    (hlive : lease.status.live = true) : c.status.live = true ∧ lease.taskId = c.taskId := by
  have hrow := Rows.get_merge (commitOver_eq_some hmerge).2 hc
  rw [hb, hn, hlease] at hrow
  obtain rfl := Option.some.inj hrow
  refine ⟨?_, by simp [mergeLease, howns]⟩
  simp only [mergeLease, column] at hlive
  split_ifs at hlive with hsame
  · exact hlive
  · rw [statesAsRead_get hstates hb hn hc hsame]
    exact hframe hlive

theorem LeaseFrame.recorded (hframe : LeaseFrame base new)
    (hmerge : Db.commitOver own base new cur = some db) (hrecords : recordsAsRead base new cur = true)
    (hstates : statesAsRead base new cur = true) (hcur : LeasesRecorded cur) :
    LeasesRecorded db := by
  intro id lease hlease hlive
  rcases Rows.get_of_merge (commitOver_eq_some hmerge).2 hlease with
    ⟨c, hc, hrow⟩ | ⟨-, hnone, hnew⟩
  · have hbefore : c.status.live = true ∧ lease.taskId = c.taskId := by
      split at hrow
      next b n hb hn =>
        obtain ⟨b', hb', howns, -, hlives⟩ := hframe.leases id n hn
        obtain rfl := Option.some.inj (hb.symm.trans hb')
        exact live_before hmerge hstates hb hn hc hlease howns hlives hlive
      · exact ⟨hrow ▸ hlive, hrow ▸ rfl⟩
    obtain ⟨task, htask, hcurrent⟩ := hcur id c hc hbefore.1
    obtain ⟨t, ht, hkept⟩ := record_kept hmerge htask fun b n hb hn hne => by
      obtain ⟨n', hn', -, hsame⟩ := hframe.tasks _ b hb
      obtain rfl := Option.some.inj (hn.symm.trans hn')
      exact hsame.trans (recordsAsRead_get hrecords hb hn htask hne).symm
    exact ⟨t, hbefore.2 ▸ ht, hkept.trans hcurrent⟩
  · obtain ⟨b, hb, -⟩ := hframe.leases id lease hnew
    rw [hnone] at hb
    cases hb

/-- A claim inserts its lease while its task has no live one. -/
theorem ClaimFrame.recorded {taskId leaseId : String} (hframe : ClaimFrame base new taskId leaseId)
    (hmerge : Db.commitOver own base new cur = some db)
    (hclaims : claimsAsRead base new cur = true) (hcur : LeasesRecorded cur) :
    LeasesRecorded db := by
  obtain ⟨b, hb⟩ := hframe.task
  obtain ⟨n, t', hn, howns, ht', hcurrent⟩ := hframe.lease
  obtain rfl : n.id = leaseId := Rows.key_of_get hn
  have hread := List.all_eq_true.mp hclaims n (Rows.mem_of_get hn)
  rw [hframe.fresh] at hread
  simp only [Option.isSome_none, Bool.false_or, Bool.and_eq_true, List.all_eq_true,
    Bool.or_eq_true, decide_eq_true_eq, Bool.not_eq_true', howns, hb, Option.map_some] at hread
  obtain ⟨hfree, hrecord⟩ := hread
  obtain ⟨c, hc, hasRead⟩ := Option.map_eq_some_iff.mp hrecord
  intro id lease hlease hlive
  rcases Rows.get_of_merge (commitOver_eq_some hmerge).2 hlease with
    ⟨l, hl, hrow⟩ | ⟨-, hnone, hnew⟩
  · -- a lease of another task, which the claim has not written
    have hsame : lease = l := by
      rw [hrow]
      by_cases hid : id = n.id
      · rw [hid, hframe.fresh]
      · rw [hframe.leases id hid]
        cases base.leases.get id with
        | none => rfl
        | some b => exact mergeLease.same b l
    subst hsame
    obtain ⟨task, htask, hrecorded⟩ := hcur id lease hl hlive
    have hother : lease.taskId ≠ taskId := by
      intro heq
      rcases hfree lease (Rows.mem_of_get hl) with hne | hdead
      · exact hne heq
      · rw [hlive] at hdead
        cases hdead
    obtain ⟨t, ht, hkept⟩ := record_kept hmerge htask fun b n hb hn hne => by
      rw [hframe.tasks _ hother, hb] at hn
      exact absurd (congrArg ExecutionTask.metadata (Option.some.inj hn).symm) hne
    exact ⟨t, ht, hkept.trans hrecorded⟩
  · obtain rfl : id = n.id := by
      by_contra hid
      rw [hframe.leases id hid, hnone] at hnew
      cases hnew
    obtain rfl : n = lease := Option.some.inj (hn.symm.trans hnew)
    have hrow := Rows.get_merge (commitOver_eq_some hmerge).1 hc
    rw [hb, ht'] at hrow
    refine ⟨_, howns ▸ hrow, ?_⟩
    rw [currentLease_mergeChanged]
    split_ifs with hsame
    · rw [hasRead, ExecutionTask.currentLease, ← hsame]
      exact hcurrent hlive
    · exact hcurrent hlive

end Commits

section Fencing

/-- No worker presents a lease that it sees it has lost, and no commit depends on leases that
have changed since they were read. -/
def Deployment.current (d : Deployment) : Event → Bool
  | .open p call kept => (d.processes p).pending.isSome || !staleWork (d.seen p kept) call
  | .commit p =>
    match (d.processes p).pending with
    | none => true
    | some tx => !tx.accepted || tx.asRead d.db
  | _ => true

/-- Work changes the rows under a live lease that the task records, and who presents a lost
lease to end work is refused. -/
structure Fenced (cfg : Config) (env : Env) (d : Deployment) (e : Event) : Prop where
  authority : ∀ p tx work, e = .commit p → (d.processes p).pending = some tx →
    tx.call.transaction.work = some work → (d.step cfg env e).db ≠ d.db →
    ∃ lease task, d.db.leases.get work.leaseId = some lease ∧
      d.db.tasks.get lease.taskId = some task ∧ lease.holderIdentity = work.workerId ∧
      lease.status.live = true ∧ task.currentLease = some (.str lease.id)
  lost : ∀ p call kept work, e = .open p call kept → (d.processes p).pending = none →
    call.transaction.work = some work → work.accepts = .running →
    ∀ lease, (d.seen p kept).leases.get work.leaseId = some lease → lease.status.live = false →
      (∃ error, call.run env (d.seen p kept) = .error error) ∧
        d.step cfg env e = d.setProcess p .fresh

/-- Live leases are recorded, and every transaction has run on rows where it presents no lost
lease. -/
structure Deployment.Recorded (env : Env) (d : Deployment) : Prop where
  leases : LeasesRecorded d.db
  pending : ∀ p tx, (d.processes p).pending = some tx →
    tx.call.run env tx.base = .ok tx.session ∧ staleWork tx.base tx.call = false

variable {cfg : Config} {env : Env} {d : Deployment}

/-- A commit over leases as they were read keeps them recorded. -/
theorem merged_recorded {tx : Pending} {cur db : Db} (hrun : tx.call.run env tx.base = .ok tx.session)
    (hread : tx.asRead cur = true) (hmerged : tx.merged cur = some db)
    (hcur : LeasesRecorded cur) : LeasesRecorded db := by
  simp only [Pending.asRead, Bool.and_eq_true] at hread
  obtain ⟨⟨⟨hrecords, hstates⟩, hclaims⟩, -⟩ := hread
  rcases run_frame hrun with hframe | ⟨taskId, leaseId, hframe⟩
  · exact hframe.recorded hmerged hrecords hstates hcur
  · exact hframe.recorded hmerged hclaims hcur

theorem asRead_of_current {p : String} {tx : Pending} (hcurrent : d.current (.commit p) = true)
    (htx : (d.processes p).pending = some tx) (haccepted : tx.accepted = true) :
    tx.asRead d.db = true := by
  simpa [Deployment.current, htx, haccepted] using hcurrent

theorem not_staleWork_of_current {p : String} {call : Call} {kept : String → Bool}
    (hcurrent : d.current (.open p call kept) = true) (hidle : (d.processes p).pending = none) :
    staleWork (d.seen p kept) call = false := by
  simpa [Deployment.current, hidle] using hcurrent

theorem step_recorded (h : d.Recorded env) {e : Event} (hcurrent : d.current e = true) :
    (d.step cfg env e).Recorded env := by
  constructor
  · obtain hsame | ⟨p, tx, db, rfl, htx, haccepted, hmerged, hdb⟩ := step_db cfg env d e
    · rw [hsame]
      exact h.leases
    · rw [hdb]
      exact merged_recorded (h.pending p tx htx).1 (asRead_of_current hcurrent htx haccepted)
        hmerged h.leases
  · apply step_pending (P := fun call base session =>
      call.run env base = .ok session ∧ staleWork base call = false) h.pending
    rintro p call kept session rfl hidle hrun
    exact ⟨hrun, not_staleWork_of_current hcurrent hidle⟩

/-- Work that is committed has found its lease live, and nobody has changed it since. -/
theorem authority_of_commit (h : d.Recorded env) {p : String} {tx : Pending} {work : Work}
    (hcurrent : d.current (.commit p) = true) (htx : (d.processes p).pending = some tx)
    (hwork : tx.call.transaction.work = some work)
    (hchanged : (d.step cfg env (.commit p)).db ≠ d.db) :
    ∃ lease task, d.db.leases.get work.leaseId = some lease ∧
      d.db.tasks.get lease.taskId = some task ∧ lease.holderIdentity = work.workerId ∧
      lease.status.live = true ∧ task.currentLease = some (.str lease.id) := by
  obtain ⟨hrun, hstale⟩ := h.pending p tx htx
  obtain hsame | ⟨q, tx', db, hq, htx', haccepted, hmerged, hdb⟩ := step_db cfg env d (.commit p)
  · exact absurd hsame hchanged
  obtain rfl := Event.commit.inj hq
  obtain rfl : tx = tx' := Option.some.inj (htx.symm.trans htx')
  obtain ⟨-, hread⟩ := Bool.and_eq_true_iff.mp (asRead_of_current hcurrent htx haccepted)
  simp only [hwork, decide_eq_true_eq] at hread
  obtain ⟨-, hnothing⟩ | ⟨lease, task, hpresented, hstatus⟩ := work_eq_ok hwork hrun
  · -- nothing was written
    rw [Pending.merged, hnothing, commitOver_same] at hmerged
    exact absurd (hdb.trans (Option.some.inj hmerged).symm) hchanged
  · have hlive := live_of_not_staleWork hstale hwork hpresented hstatus
    have hrow : d.db.leases.get work.leaseId = some lease := hread.trans hpresented.leaseRow
    obtain ⟨owner, howner, hrecorded⟩ := h.leases _ lease hrow hlive
    exact ⟨lease, owner, hrow, howner, hpresented.holder, hlive, hpresented.leaseId ▸ hrecorded⟩

/-- A lost lease ends no work. -/
theorem raises_of_lost {db : Db} {call : Call} {work : Work} {lease : WorkerLease}
    (hstale : staleWork db call = false) (hwork : call.transaction.work = some work)
    (hends : work.accepts = .running) (hlease : db.leases.get work.leaseId = some lease)
    (hlost : lease.status.live = false) : ∃ error, call.run env db = .error error := by
  cases hrun : call.run env db with
  | error e => exact ⟨e, rfl⟩
  | ok s =>
    obtain ⟨hclaimed, -⟩ | ⟨lease', task, hpresented, hstatus⟩ := work_eq_ok hwork hrun
    · rw [hends] at hclaimed
      cases hclaimed
    · obtain rfl : lease' = lease := Option.some.inj (hpresented.leaseRow.symm.trans hlease)
      rw [live_of_not_staleWork hstale hwork hpresented hstatus] at hlost
      cases hlost

theorem fenced_of_current (h : d.Recorded env) {e : Event} (hcurrent : d.current e = true) :
    Fenced cfg env d e := by
  refine ⟨?_, ?_⟩
  · rintro p tx work rfl htx hwork hchanged
    exact authority_of_commit h hcurrent htx hwork hchanged
  · rintro p call kept work rfl hidle hwork hends lease hlease hlost
    obtain ⟨error, hrun⟩ : ∃ error, call.run env (d.seen p kept) = .error error :=
      raises_of_lost (not_staleWork_of_current hcurrent hidle) hwork hends hlease hlost
    refine ⟨⟨error, hrun⟩, ?_⟩
    simp only [Deployment.step, hidle, openCall, hrun]

theorem empty_recorded : Deployment.empty.Recorded env where
  leases _ _ h := nomatch h
  pending _ _ h := nomatch h

/-- Every run over current leases is fenced at each of its steps. -/
theorem work_fenced_by_leases (cfg : Config) (env : Env) (events : List Event)
    (h : Guarded (Deployment.step cfg env) (fun d e => d.current e = true) .empty events) :
    Guarded (Deployment.step cfg env) (Fenced cfg env) .empty events :=
  h.of_invariant (fun _ _ hrecorded hcurrent => step_recorded hrecorded hcurrent)
    (fun _ _ hrecorded hcurrent => fenced_of_current hrecorded hcurrent) empty_recorded

def callsOf (transactions : List Transaction) : List Call :=
  transactions.map (⟨⟨"now", fun taskId => "dispatch-" ++ taskId⟩, ·⟩)

def sampleTask (id : String) (status : ExecutionTaskState) (metadata : Fields) : ExecutionTask :=
  ⟨id, "tenant", "mission", none, none, status, metadata, 0⟩

def callOf (transaction : Transaction) : Call :=
  ⟨⟨"now", fun taskId => "dispatch-" ++ taskId⟩, transaction⟩

/-- A call of a process that reads all its rows again. -/
def calledBy (process : String) (transaction : Transaction) : List Event :=
  [.open process (callOf transaction) fun _ => false, .ask process "reason", .commit process]

def queuedTask : List Event :=
  calledBy "api" (.createMission ⟨"mission", "tenant", .queued, []⟩) ++
    calledBy "api" (.createTask (sampleTask "task" .planned [])) ++
    calledBy "api" (.createTask (sampleTask "later" .planned [])) ++
    calledBy "api" (.queueTask "tenant" "task" .admitted true) ++
    [.queue (.enqueue "task" (RedisQueue.encodeMessage
      ⟨"tenant", "task", "mission", none, none, [], "now"⟩))]

def claimedBy (workerId leaseId : String) : List Event :=
  .queue (.claimNext workerId) ::
    calledBy workerId (.claim (fun _ => false) "tenant" "task" workerId leaseId)

/-- The lease of a slow worker expires, the task is queued again and a second worker runs it. -/
def reclaimed : List Event :=
  .queue (.leaseExpires "task") :: calledBy "maintainer" (.recoverLease 3 "lease-1") ++
    claimedBy "second" "lease-2" ++ calledBy "second" (.start "tenant" "lease-2" "second")

/-- The worker's loop does not read the task again that it has claimed. -/
def loopOf (workerId leaseId : String) : List Event :=
  let kept (key : String) : Bool := key = "task"
  claimedBy workerId leaseId ++
    [.open workerId (callOf (.heartbeat "tenant" leaseId workerId)) kept, .ask workerId "reason",
      .commit workerId, .open workerId (callOf (.start "tenant" leaseId workerId)) kept,
      .commit workerId, .close workerId]

theorem work_fenced_by_leases_reclaimed :
    Guarded (Deployment.step ⟨"tenant", 30⟩ .plain) (Fenced ⟨"tenant", 30⟩ .plain) .empty
      (queuedTask ++ loopOf "slow" "lease-1" ++ reclaimed ++
        calledBy "slow" (.start "tenant" "lease-1" "slow") ++
        calledBy "second" (.complete "tenant" "lease-2" "second" none none none)) :=
  work_fenced_by_leases _ _ _ (by decide +kernel)

/-- A commit of work under a lease that has expired is not fenced. -/
theorem not_fenced_of_expired {events : List Event} {p leaseId : String}
    (hwork : ((((exec (Deployment.step cfg env) .empty events).processes p).pending.bind
      (·.call.transaction.work)).map Work.leaseId) = some leaseId)
    (hexpired : ((exec (Deployment.step cfg env) .empty events).db.leases.get leaseId).map
      WorkerLease.status = some .expired)
    (hchanged : (exec (Deployment.step cfg env) .empty (events ++ [.commit p])).db ≠
      (exec (Deployment.step cfg env) .empty events).db) :
    ¬Guarded (Deployment.step cfg env) (Fenced cfg env) .empty (events ++ [.commit p]) := by
  intro hfenced
  obtain ⟨work, hpending, rfl⟩ := Option.map_eq_some_iff.mp hwork
  obtain ⟨tx, htx, hwork⟩ := Option.bind_eq_some_iff.mp hpending
  obtain ⟨expired, hlease, hstatus⟩ := Option.map_eq_some_iff.mp hexpired
  rw [exec_append] at hchanged
  obtain ⟨lease, -, hrow, -, -, hlive, -⟩ :=
    (guarded_append.mp hfenced).2.1.authority p tx work rfl htx hwork hchanged
  obtain rfl : lease = expired := Option.some.inj (hrow.symm.trans hlease)
  rw [hstatus] at hlive
  cases hlive

def slowClaim : List Event := queuedTask ++ claimedBy "slow" "lease-1"

def slowStart : List Event := calledBy "slow" (.start "tenant" "lease-1" "slow")

def slowCompletion : Event :=
  .open "slow" (callOf (.complete "tenant" "lease-1" "slow" none none none)) fun _ => false

/-- A completion that the slow worker begins after the second one has started. -/
def completedLate : List Event := slowClaim ++ slowStart ++ reclaimed ++ [slowCompletion]

/-- A start in the session of the claim, which does not read the task again. -/
def startedFromClaim : List Event :=
  slowClaim ++ reclaimed ++
    [.open "slow" (callOf (.start "tenant" "lease-1" "slow")) fun key => key = "task"]

/-- A completion that the slow worker begins before its lease expires. -/
def completedEarly : List Event := slowClaim ++ slowStart ++ [slowCompletion] ++ reclaimed

/-- The second worker runs the task, and the slow worker's commit changes it. -/
structure LostCommit (events : List Event) : Prop where
  expired : ((exec (Deployment.step ⟨"tenant", 30⟩ .plain) .empty events).db.leases.get
    "lease-1").map WorkerLease.status = some .expired
  running : (((exec (Deployment.step ⟨"tenant", 30⟩ .plain) .empty events).db.tasks.get
    "task").map fun t => (t.status, t.currentLease)) = some (.running, some (.str "lease-2"))
  changed : (exec (Deployment.step ⟨"tenant", 30⟩ .plain) .empty
      (events ++ [.commit "slow"])).db.tasks.get "task" ≠
    (exec (Deployment.step ⟨"tenant", 30⟩ .plain) .empty events).db.tasks.get "task"
  unfenced : ¬Guarded (Deployment.step ⟨"tenant", 30⟩ .plain) (Fenced ⟨"tenant", 30⟩ .plain) .empty
    (events ++ [.commit "slow"])

theorem lostCommit_of_work {events : List Event}
    (hwork : ((((exec (Deployment.step ⟨"tenant", 30⟩ .plain) .empty events).processes
      "slow").pending.bind (·.call.transaction.work)).map Work.leaseId) = some "lease-1")
    (hexpired : ((exec (Deployment.step ⟨"tenant", 30⟩ .plain) .empty events).db.leases.get
      "lease-1").map WorkerLease.status = some .expired)
    (hrunning : (((exec (Deployment.step ⟨"tenant", 30⟩ .plain) .empty events).db.tasks.get
      "task").map fun t => (t.status, t.currentLease)) = some (.running, some (.str "lease-2")))
    (hchanged : (exec (Deployment.step ⟨"tenant", 30⟩ .plain) .empty
        (events ++ [.commit "slow"])).db.tasks.get "task" ≠
      (exec (Deployment.step ⟨"tenant", 30⟩ .plain) .empty events).db.tasks.get "task") :
    LostCommit events :=
  ⟨hexpired, hrunning, hchanged,
    not_fenced_of_expired hwork hexpired fun hsame => hchanged (by rw [hsame])⟩

theorem task_changed_under_lost_lease :
    LostCommit completedLate ∧ LostCommit startedFromClaim ∧ LostCommit completedEarly :=
  ⟨lostCommit_of_work (by decide +kernel) (by decide +kernel) (by decide +kernel)
      (by decide +kernel),
    lostCommit_of_work (by decide +kernel) (by decide +kernel) (by decide +kernel)
      (by decide +kernel),
    lostCommit_of_work (by decide +kernel) (by decide +kernel) (by decide +kernel)
      (by decide +kernel)⟩

end Fencing

end Ajenda.Runtime
