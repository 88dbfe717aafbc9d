import Ajenda.LeaseFencing

/-!
# Stop requests

What becomes of a stop request that `cancel_task` records on work in flight. A completion of
the owner raises, because a running task may not become cancelled, and a claim or a start does
not read the request; so from no state with such a request is it honoured.
-/
namespace Ajenda.Runtime
open JsonValue KeyedRows TransitionSystem

/-- `cancel_requested` is recorded in the metadata. -/
def ExecutionTask.cancelRequested (task : ExecutionTask) : Bool :=
  (fieldOr task.metadata "cancel_requested").truthy

/-- The task is cancelled, its lease released, and no output was committed. -/
structure StoppedBy (db db' : Db) (taskId leaseId : String) : Prop where
  task : ∃ t, db'.tasks.get taskId = some t ∧ t.status = .cancelled
  lease : ∃ l, db'.leases.get leaseId = some l ∧ l.status = .released
  lineage : db'.lineage = db.lineage
  evidence : db'.evidence = db.evidence

/-- In every run from these rows a completion of the owner stops the task, and the task is not
started again once it is queued with the request. -/
structure StopHonoured (env : Env) (db : Db) (taskId : String) : Prop where
  completion : ∀ (calls : List Call) (amb : Ambient) (tenantId leaseId workerId : String)
    (taskOutput : Option Fields) (outputReason : Option String) (runtimeMetadata : Option Fields)
    (lease : WorkerLease) (task : ExecutionTask),
    let db' := exec (commit env) db calls
    Presented db'.open tenantId leaseId workerId lease task → task.id = taskId →
      task.status = .running → task.cancelRequested = true →
      StoppedBy db' (commit env db' ⟨amb, .complete tenantId leaseId workerId taskOutput
        outputReason runtimeMetadata⟩) taskId leaseId
  restart : ∀ (calls more : List Call) (task later : ExecutionTask),
    (exec (commit env) db calls).tasks.get taskId = some task → task.status = .queued →
      task.cancelRequested = true →
      (exec (commit env) db (calls ++ more)).tasks.get taskId = some later →
      later.status = .queued ∨ later.status = .claimed ∨ later.status = .cancelled

section Requested
variable {env : Env} {db : Db} {tenantId leaseId workerId : String} {lease : WorkerLease}
  {task : ExecutionTask}

/-- Completing a running task with a request raises and changes nothing. -/
theorem complete_requested_raises (amb : Ambient) (taskOutput : Option Fields)
    (outputReason : Option String) (runtimeMetadata : Option Fields)
    (hp : Presented db.open tenantId leaseId workerId lease task)
    (hrequested : task.cancelRequested = true) :
    commit env db ⟨amb, .complete tenantId leaseId workerId taskOutput outputReason
      runtimeMetadata⟩ = db := by
  simp only [commit, Call.run]
  split
  · rename_i s hs
    obtain ⟨lease', task', _, _, hp', -, hnot, -⟩ := complete_eq_ok hs
    obtain rfl : lease = lease' := Option.some_inj.1 (hp.leaseRow.symm.trans hp'.leaseRow)
    obtain rfl : task = task' := Option.some_inj.1 (hp.taskRow.symm.trans hp'.taskRow)
    rw [fieldOr, mergeRuntimeMetadata_get (by simp)] at hnot
    rw [ExecutionTask.cancelRequested, fieldOr, hnot] at hrequested
    cases hrequested
  · rfl

/-- A claimed task is started whatever was requested. -/
theorem start_requested (hp : Presented db.open tenantId leaseId workerId lease task)
    (hclaimed : task.status = .claimed)
    (hrequested : task.cancelRequested = true) (amb : Ambient) :
    ∃ lease' task', task'.id = task.id ∧ task'.status = .running ∧
      task'.cancelRequested = true ∧
      Presented (commit env db ⟨amb, .start tenantId leaseId workerId⟩).open tenantId leaseId
        workerId lease' task' := by
  have hactive : ∃ l, activateLease lease = .ok l := by
    unfold activateLease
    split_ifs with h
    · exact ⟨lease.withStatus .active, transitionLease_eq_ok.2 ⟨by simp [h, leaseAllowed], rfl⟩⟩
    · exact ⟨lease, rfl⟩
  obtain ⟨lease', hlease'⟩ := hactive
  have hkept := (activateLease_eq_ok hlease').1
  have hmoved : transitionTask task .running = .ok (task.withStatus .running) :=
    transitionTask_eq_ok.2 ⟨by simp [hclaimed, taskAllowed], rfl⟩
  have howned : getOwnedLease db.open tenantId leaseId workerId = .ok lease := by
    simp [getOwnedLease, hp.leaseRow, hp.tenant, hp.holder]
  have hread : getTaskForLease db.open lease = .ok task := by
    simp [getTaskForLease, hp.taskRow]
  let started := (task.withStatus .running).withMetadata
    (Fields.set task.metadata "runtime_evidence_contract_version" (.str "1"))
  have hcommit : commit env db ⟨amb, .start tenantId leaseId workerId⟩ =
      ((db.open.saveLease lease').saveTask started).db := by
    simp only [commit, Call.run, startExecution, howned, hread, bind, Except.bind, if_pos hclaimed,
      hlease', hmoved]
    rfl
  have hleaseId : lease'.id = leaseId := by
    rw [hkept]
    exact hp.leaseId
  have htaskId : task.id = lease.taskId := Rows.key_of_get hp.taskRow
  have hleaseTask : lease'.taskId = lease.taskId := by
    rw [hkept]
    rfl
  have hleaseRow : db.leases.get (Keyed.key lease') = some lease := by
    rw [show Keyed.key lease' = leaseId from hleaseId]
    exact hp.leaseRow
  have htaskRow : db.tasks.get (Keyed.key started) = some task := by
    rw [show Keyed.key started = lease.taskId from htaskId]
    exact hp.taskRow
  have hleaseSelf := Rows.get_set_self hleaseRow
  rw [show Keyed.key lease' = leaseId from hleaseId] at hleaseSelf
  have htaskSelf := Rows.get_set_self htaskRow
  rw [show Keyed.key started = lease.taskId from htaskId, ← hleaseTask] at htaskSelf
  refine ⟨lease', started, rfl, rfl, ?_, ?_⟩
  · simp only [ExecutionTask.cancelRequested, fieldOr, started, ExecutionTask.withMetadata_metadata]
    rw [Fields.get_set_ne _ _ (by simp)]
    exact hrequested
  · rw [hcommit]
    exact
      { leaseRow := hleaseSelf
        leaseId := hleaseId
        tenant := by
          rw [hkept]
          exact hp.tenant
        holder := by
          rw [hkept]
          exact hp.holder
        taskRow := htaskSelf }

/-- In no run from rows with a request on work in flight does a completion honour it, and from
no such rows is the request honoured. -/
theorem stop_request_never_honoured (env : Env) {db : Db}
    (hp : Presented db.open tenantId leaseId workerId lease task)
    (hflight : task.status = .claimed ∨ task.status = .running)
    (hrequested : task.cancelRequested = true) :
    (∀ (calls : List Call) (amb : Ambient) (lease' : WorkerLease) (task' : ExecutionTask)
      (taskOutput : Option Fields) (outputReason : Option String)
      (runtimeMetadata : Option Fields),
      let db' := exec (commit env) db calls
      Presented db'.open tenantId leaseId workerId lease' task' → task'.id = task.id →
        task'.cancelRequested = true →
        commit env db' ⟨amb, .complete tenantId leaseId workerId taskOutput outputReason
          runtimeMetadata⟩ = db') ∧
      ¬StopHonoured env db task.id := by
  refine ⟨fun calls amb lease' task' taskOutput outputReason runtimeMetadata hp' _ hreq =>
    complete_requested_raises amb taskOutput outputReason runtimeMetadata hp' hreq, ?_⟩
  intro h
  have hfail : ∀ (calls : List Call) (lease' : WorkerLease) (task' : ExecutionTask),
      Presented (exec (commit env) db calls).open tenantId leaseId workerId lease' task' →
      task'.id = task.id → task'.status = .running → task'.cancelRequested = true → False := by
    intro calls lease' task' hp' hid hrunning hreq
    have hstopped := h.completion calls ⟨"", fun _ => ""⟩ tenantId leaseId workerId none none none
      lease' task' hp' hid hrunning hreq
    rw [complete_requested_raises _ _ _ _ hp' hreq] at hstopped
    obtain ⟨t, ht, hcancelled⟩ := hstopped.task
    have hkey : task'.id = lease'.taskId := Rows.key_of_get hp'.taskRow
    have hrow := hp'.taskRow
    rw [← hkey, hid] at hrow
    rw [show (exec (commit env) db calls).open.db.tasks.get task.id = some t from ht,
      Option.some_inj] at hrow
    rw [hrow, hrunning] at hcancelled
    cases hcancelled
  rcases hflight with hclaimed | hrunning
  · obtain ⟨lease', task', hid, hrunning, hreq, hp'⟩ := start_requested hp
      hclaimed hrequested ⟨"", fun _ => ""⟩
    exact hfail [⟨⟨"", fun _ => ""⟩, .start tenantId leaseId workerId⟩] lease' task' hp' hid
      hrunning hreq
  · exact hfail [] lease task hp rfl hrunning hrequested

end Requested

/-- A worker starts a task, which is then asked to stop. -/
def requestedRun : List Transaction :=
  [.createMission ⟨"mission", "tenant", .queued, []⟩, .createTask (sampleTask "task" .planned []),
    .queueTask "tenant" "task" .admitted true,
    .claim (fun _ => false) "tenant" "task" "owner" "lease-1", .start "tenant" "lease-1" "owner",
    .cancelTask "tenant" "task" "stop"]

/-- A worker is asked to stop a task it has claimed and gives it back; another runs it to its
end. -/
def restartedRun : List Transaction :=
  [.createMission ⟨"mission", "tenant", .queued, []⟩, .createTask (sampleTask "task" .planned []),
    .createTask (sampleTask "later" .planned []), .queueTask "tenant" "task" .admitted true,
    .claim (fun _ => false) "tenant" "task" "owner" "lease-1", .cancelTask "tenant" "task" "stop",
    .release "tenant" "lease-1" "owner",
    .claim (fun _ => false) "tenant" "task" "second" "lease-2",
    .start "tenant" "lease-2" "second"]

/-- The completion of the owner is refused and the task stays running, and a task that was
given back with the request is run by the next worker. -/
theorem stop_request_ignored :
    let db := exec (commit Env.plain) Db.empty (callsOf requestedRun)
    let completed := exec (commit Env.plain) db
      (callsOf [.complete "tenant" "lease-1" "owner" none none none])
    let restarted := exec (commit Env.plain) Db.empty (callsOf restartedRun)
    (db.tasks.get "task").map (fun t => (t.status, t.cancelRequested)) =
        some (.running, true) ∧
      (completed.tasks.get "task").map (fun t => (t.status, t.cancelRequested)) =
        some (.running, true) ∧
      (completed.leases.get "lease-1").map WorkerLease.status = some .active ∧
      (restarted.tasks.get "task").map (fun t => (t.status, t.cancelRequested)) =
        some (.running, true) := by
  decide +kernel

/-- The run's last rows are ones from which the request is not honoured. -/
theorem sample_stop_request_never_honoured :
    ¬StopHonoured Env.plain (exec (commit Env.plain) Db.empty (callsOf requestedRun)) "task" := by
  have hlease : ((exec (commit Env.plain) Db.empty (callsOf requestedRun)).leases.get
      "lease-1").map (fun l => (l.id, l.tenantId, l.holderIdentity, l.taskId)) =
      some ("lease-1", "tenant", "owner", "task") := by
    decide +kernel
  have htask : ((exec (commit Env.plain) Db.empty (callsOf requestedRun)).tasks.get "task").map
      (fun t => (t.id, t.status, t.cancelRequested)) = some ("task", .running, true) := by
    decide +kernel
  obtain ⟨lease, hleaseRow, hl⟩ := Option.map_eq_some_iff.1 hlease
  obtain ⟨task, htaskRow, ht⟩ := Option.map_eq_some_iff.1 htask
  simp only [Prod.mk.injEq] at hl ht
  obtain ⟨hid, hrunning, hrequested⟩ := ht
  have hp : Presented (exec (commit Env.plain) Db.empty (callsOf requestedRun)).open "tenant"
      "lease-1" "owner" lease task :=
    { leaseRow := hleaseRow
      leaseId := hl.1
      tenant := hl.2.1
      holder := hl.2.2.1
      taskRow := by
        rw [hl.2.2.2]
        exact htaskRow }
  rw [← hid]
  exact (stop_request_never_honoured Env.plain hp (Or.inr hrunning) hrequested).2

end Ajenda.Runtime
