import Ajenda.RollupFrame

/-!
# What the worker's methods do

One lemma for each method that takes a lease: whose lease and which task it has read, in
which state, and what it wrote before the rollup. Later modules use the methods through
these lemmas only.
-/
namespace Ajenda.Runtime
open JsonValue KeyedRows

section Methods
variable {env : Env} {amb : Ambient} {s s' : Session}

theorem getOwnedLease_eq_ok {tenantId leaseId workerId : String} {lease : WorkerLease}
    (h : getOwnedLease s tenantId leaseId workerId = .ok lease) :
    s.db.leases.get leaseId = some lease ∧ lease.id = leaseId ∧ lease.tenantId = tenantId ∧
      lease.holderIdentity = workerId := by
  unfold getOwnedLease at h
  split at h
  · cases h
  next l hl =>
    split_ifs at h with howner
    obtain rfl := Except.ok.inj h
    rw [not_or, not_not, not_not] at howner
    exact ⟨hl, Rows.key_of_get hl, howner.1, howner.2⟩

theorem getTaskForLease_eq_ok {lease : WorkerLease} {task : ExecutionTask}
    (h : getTaskForLease s lease = .ok task) :
    s.db.tasks.get lease.taskId = some task ∧ task.id = lease.taskId := by
  unfold getTaskForLease at h
  split at h
  · cases h
  next t ht =>
    obtain rfl := Except.ok.inj h
    exact ⟨ht, Rows.key_of_get ht⟩

theorem activateLease_eq_ok {lease lease' : WorkerLease} (h : activateLease lease = .ok lease') :
    lease' = lease.withStatus lease'.status ∧ lease'.status ≠ .claimed ∧
      lease'.status.live = lease.status.live := by
  unfold activateLease at h
  split_ifs at h with hclaimed
  · obtain ⟨-, rfl⟩ := transitionLease_eq_ok.mp h
    simp [hclaimed, WorkerLeaseState.live]
  · obtain rfl := Except.ok.inj h
    exact ⟨rfl, hclaimed, rfl⟩

theorem transitionLeaseToReleased_eq_ok {lease lease' : WorkerLease}
    (h : transitionLeaseToReleased lease = .ok lease') :
    lease' = lease.withStatus .released := by
  unfold transitionLeaseToReleased at h
  split_ifs at h with hreleased
  · obtain rfl := Except.ok.inj h
    rw [← hreleased]
    rfl
  · obtain ⟨l, hl, hrest⟩ := bind_eq_ok.mp h
    obtain ⟨-, rfl⟩ := transitionLease_eq_ok.mp hrest
    rw [(activateLease_eq_ok hl).1]
    rfl

/-- A method has written its lease and the task of the lease, and then rolled up. -/
structure Handled (env : Env) (s s' : Session) (lease lease' : WorkerLease)
    (task task' : ExecutionTask) : Prop where
  leaseRow : s.db.leases.get lease.id = some lease
  taskRow : s.db.tasks.get task.id = some task
  owns : task.id = lease.taskId
  leaseKept : lease' = lease.withStatus lease'.status
  live : lease'.status.live = true → lease.status.live = true
  taskId : task'.id = task.id
  tenantId : task'.tenantId = task.tenantId
  current : task'.currentLease = task.currentLease
  rolled : ∃ s₁ : Session, s₁.db.tasks = s.db.tasks.set task' ∧
    s₁.db.leases = s.db.leases.set lease' ∧ Rolled env s₁ s'

/-- Who presents a lease owns it, and the lease belongs to the task that is read. -/
structure Presented (s : Session) (tenantId leaseId workerId : String) (lease : WorkerLease)
    (task : ExecutionTask) : Prop where
  leaseRow : s.db.leases.get leaseId = some lease
  leaseId : lease.id = leaseId
  tenant : lease.tenantId = tenantId
  holder : lease.holderIdentity = workerId
  taskRow : s.db.tasks.get lease.taskId = some task

theorem presented_of_eq_ok {tenantId leaseId workerId : String} {lease : WorkerLease}
    {task : ExecutionTask} (hlease : getOwnedLease s tenantId leaseId workerId = .ok lease)
    (htask : getTaskForLease s lease = .ok task) :
    Presented s tenantId leaseId workerId lease task := by
  obtain ⟨hget, hid, htenant, hholder⟩ := getOwnedLease_eq_ok hlease
  exact ⟨hget, hid, htenant, hholder, (getTaskForLease_eq_ok htask).1⟩

section Handling
variable {tenantId leaseId workerId : String} {lease lease' : WorkerLease}
  {task task' : ExecutionTask}

theorem Presented.handled (h : Presented s tenantId leaseId workerId lease task)
    (hlease : lease' = lease.withStatus lease'.status)
    (hlive : lease'.status.live = true → lease.status.live = true) (hid : task'.id = task.id)
    (htenant : task'.tenantId = task.tenantId) (hcurrent : task'.currentLease = task.currentLease)
    (hrolled : ∃ s₁ : Session, s₁.db.tasks = s.db.tasks.set task' ∧
      s₁.db.leases = s.db.leases.set lease' ∧ Rolled env s₁ s') :
    Handled env s s' lease lease' task task' := by
  have htask : task.id = lease.taskId := Rows.key_of_get h.taskRow
  exact ⟨h.leaseId ▸ h.leaseRow, htask ▸ h.taskRow, htask, hlease, hlive, hid, htenant, hcurrent, hrolled⟩

/-- A method that has released its lease. -/
theorem Presented.released (h : Presented s tenantId leaseId workerId lease task)
    (hid : task'.id = task.id) (htenant : task'.tenantId = task.tenantId)
    (hcurrent : task'.currentLease = task.currentLease)
    (hrolled : ∃ s₁ : Session, s₁.db.tasks = s.db.tasks.set task' ∧
      s₁.db.leases = s.db.leases.set (lease.withStatus .released) ∧ Rolled env s₁ s') :
    Handled env s s' lease (lease.withStatus .released) task task' :=
  h.handled rfl (fun hl => by simp [WorkerLeaseState.live] at hl) hid htenant hcurrent hrolled

variable (env) in
theorem startExecution_eq_ok (h : startExecution s tenantId leaseId workerId = .ok s') :
    ∃ lease task, Presented s tenantId leaseId workerId lease task ∧
      (task.status ≠ .claimed ∧ s' = s ∨
        task.status = .claimed ∧ ∃ lease' task', task'.status = .running ∧
          lease'.status ≠ .claimed ∧ Handled env s s' lease lease' task task') := by
  obtain ⟨lease, hlease, hrest⟩ := bind_eq_ok.mp h
  obtain ⟨task, htask, hrest⟩ := bind_eq_ok.mp hrest
  have hpresented := presented_of_eq_ok hlease htask
  refine ⟨lease, task, hpresented, ?_⟩
  split_ifs at hrest with hclaimed
  · right
    obtain ⟨lease', hlease', hrest⟩ := bind_eq_ok.mp hrest
    obtain ⟨task', htask', hrest⟩ := bind_eq_ok.mp hrest
    obtain ⟨-, rfl⟩ := transitionTask_eq_ok.mp htask'
    obtain rfl := Except.ok.inj hrest
    have hstatus := activateLease_eq_ok hlease'
    refine ⟨hclaimed, lease', _, rfl, hstatus.2.1, hpresented.handled hstatus.1
      (fun hl => hstatus.2.2 ▸ hl) ?_ ?_ ?_ ⟨_, rfl, rfl, .refl _⟩⟩
    · rfl
    · rfl
    · simp [ExecutionTask.currentLease, Fields.get_set]
  · exact .inl ⟨hclaimed, (Except.ok.inj hrest).symm⟩

theorem mergeRuntimeMetadata_get {metadata : Fields} {extra : Option Fields} {key : String}
    (h : key ∉ ["runtime_causal_observations", "input_binding_audit", "tool_invocation"]) :
    Fields.get (mergeRuntimeMetadata metadata extra) key = Fields.get metadata key := by
  cases extra with
  | none => rfl
  | some extra =>
    refine Fields.get_update_of_forall_ne fun f hf hkey => h ?_
    simpa [hkey] using List.of_mem_filter hf

theorem completeCancelRequested_ne_ok (hrunning : task.status = .running) :
    completeCancelRequested s task lease ≠ .ok s' := by
  intro h
  obtain ⟨task', htask', -⟩ := bind_eq_ok.mp h
  have := (transitionTask_eq_ok.mp htask').1
  simp [hrunning, taskAllowed] at this

theorem recordOutput_eq_ok {taskOutput : Option Fields} {outputReason : Option String}
    (h : recordOutput env s task lease taskOutput outputReason = .ok (s', task')) :
    s'.db.tasks = s.db.tasks ∧ s'.db.leases = s.db.leases ∧ task'.id = task.id ∧
      task'.tenantId = task.tenantId ∧ task'.status = task.status ∧
      task'.currentLease = task.currentLease := by
  cases taskOutput with
  | none =>
    obtain ⟨rfl, rfl⟩ := Prod.mk.inj (Except.ok.inj h)
    exact ⟨rfl, rfl, rfl, rfl, rfl, rfl⟩
  | some taskOutput =>
    obtain ⟨records, -, hrest⟩ := bind_eq_ok.mp h
    obtain ⟨rfl, rfl⟩ := Prod.mk.inj (Except.ok.inj hrest)
    refine ⟨rfl, rfl, ?_⟩
    split_ifs <;> simp [ExecutionTask.currentLease, mirrorTaskOutput, Fields.get_set]

theorem complete_eq_ok {taskOutput : Option Fields} {outputReason : Option String}
    {runtimeMetadata : Option Fields}
    (h : complete env amb s tenantId leaseId workerId taskOutput outputReason runtimeMetadata =
      .ok s') :
    ∃ lease task lease' task', Presented s tenantId leaseId workerId lease task ∧
      task.status = .running ∧
      (fieldOr (mergeRuntimeMetadata task.metadata runtimeMetadata) "cancel_requested").truthy =
        false ∧
      task'.status = .completed ∧ lease'.status = .released ∧
      Handled env s s' lease lease' task task' := by
  obtain ⟨lease, hlease, hrest⟩ := bind_eq_ok.mp h
  obtain ⟨task, htask, hrest⟩ := bind_eq_ok.mp hrest
  have hpresented := presented_of_eq_ok hlease htask
  dsimp only at hrest
  split_ifs at hrest with hrunning hcancel
  · rw [not_not] at hrunning
    exact absurd hrest (completeCancelRequested_ne_ok hrunning)
  · rw [not_not] at hrunning
    obtain ⟨-, -, hrest⟩ := bind_eq_ok.mp hrest
    obtain ⟨task₁, htask₁, hrest⟩ := bind_eq_ok.mp hrest
    obtain ⟨-, rfl⟩ := transitionTask_eq_ok.mp htask₁
    obtain ⟨lease', hlease', hrest⟩ := bind_eq_ok.mp hrest
    obtain rfl := transitionLeaseToReleased_eq_ok hlease'
    obtain ⟨⟨s₂, task'⟩, houtput, hrest⟩ := bind_eq_ok.mp hrest
    obtain ⟨htasks, hleases, hid, htenant, hstatus, hcurrent⟩ := recordOutput_eq_ok houtput
    have hmerged : Fields.get (mergeRuntimeMetadata task.metadata runtimeMetadata)
        "worker_lease_id" = Fields.get task.metadata "worker_lease_id" :=
      mergeRuntimeMetadata_get (by simp)
    have hcurrent : task'.currentLease = task.currentLease := by
      rw [hcurrent]
      simp [ExecutionTask.currentLease, Fields.get_pop, hmerged]
    have hrolled : Rolled env (s₂.saveTask task') s' :=
      (refreshDeliverableReadModel_rolled _ _).trans (maybeRollupMissionStatus_rolled hrest)
    refine ⟨lease, task, _, task', hpresented, hrunning, by simpa using hcancel, hstatus, rfl,
      hpresented.released hid htenant hcurrent ⟨_, ?_, ?_, hrolled⟩⟩
    · exact congrArg (·.set task') htasks
    · exact hleases

variable (env) in
theorem blockCompletionFailure_eq_ok
    (h : blockCompletionFailure s tenantId leaseId workerId = .ok s') :
    ∃ lease task lease' task', Presented s tenantId leaseId workerId lease task ∧
      task.status = .running ∧ task' = task.withStatus .blocked ∧
      lease'.status = .released ∧ Handled env s s' lease lease' task task' := by
  obtain ⟨lease, hlease, hrest⟩ := bind_eq_ok.mp h
  obtain ⟨task, htask, hrest⟩ := bind_eq_ok.mp hrest
  have hpresented := presented_of_eq_ok hlease htask
  split_ifs at hrest with hrunning
  rw [not_not] at hrunning
  obtain ⟨task', htask', hrest⟩ := bind_eq_ok.mp hrest
  obtain ⟨-, rfl⟩ := transitionTask_eq_ok.mp htask'
  obtain ⟨lease', hlease', hrest⟩ := bind_eq_ok.mp hrest
  obtain rfl := transitionLeaseToReleased_eq_ok hlease'
  obtain rfl := Except.ok.inj hrest
  exact ⟨lease, task, _, _, hpresented, hrunning, rfl, rfl,
    hpresented.released rfl rfl rfl ⟨_, rfl, rfl, .refl _⟩⟩

theorem fail_eq_ok {reason evidenceId : String}
    (h : fail env amb s tenantId leaseId workerId reason evidenceId = .ok s') :
    ∃ lease task lease' task', Presented s tenantId leaseId workerId lease task ∧
      task.status = .running ∧ task'.status = .failed ∧ lease'.status = .released ∧
      Handled env s s' lease lease' task task' := by
  obtain ⟨lease, hlease, hrest⟩ := bind_eq_ok.mp h
  obtain ⟨task, htask, hrest⟩ := bind_eq_ok.mp hrest
  have hpresented := presented_of_eq_ok hlease htask
  split_ifs at hrest with haccepted
  obtain ⟨task', htask', hrest⟩ := bind_eq_ok.mp hrest
  obtain ⟨hallowed, rfl⟩ := transitionTask_eq_ok.mp htask'
  have hrunning : task.status = .running := by
    cases hs : task.status <;> simp [hs, taskAllowed] at hallowed haccepted ⊢
  obtain ⟨lease', hlease', hrest⟩ := bind_eq_ok.mp hrest
  obtain rfl := transitionLeaseToReleased_eq_ok hlease'
  refine ⟨lease, task, _, (task.withStatus .failed).withMetadata
      (Fields.set task.metadata "failure" (handlerFailure amb.now reason)),
    hpresented, hrunning, rfl, rfl, hpresented.released rfl rfl ?_ ⟨_, rfl, rfl,
      (refreshDeliverableReadModel_rolled _ _).trans (maybeRollupMissionStatus_rolled hrest)⟩⟩
  simp [ExecutionTask.currentLease, Fields.get_set]

variable (env) in
theorem release_eq_ok (h : release s tenantId leaseId workerId = .ok s') :
    ∃ lease task lease' task', Presented s tenantId leaseId workerId lease task ∧
      task.status = .claimed ∧ task' = task.withStatus .queued ∧
      lease'.status = .released ∧ Handled env s s' lease lease' task task' := by
  obtain ⟨lease, hlease, hrest⟩ := bind_eq_ok.mp h
  obtain ⟨task, htask, hrest⟩ := bind_eq_ok.mp hrest
  have hpresented := presented_of_eq_ok hlease htask
  obtain ⟨⟨⟩, hassert, hrest⟩ := bind_eq_ok.mp hrest
  have hclaimed : task.status = .claimed := by
    unfold assertCurrentReleasableClaim at hassert
    split_ifs at hassert with _ _ hclaimed
    simpa using hclaimed
  obtain ⟨lease', hlease', hrest⟩ := bind_eq_ok.mp hrest
  obtain rfl := transitionLeaseToReleased_eq_ok hlease'
  obtain ⟨task', htask', hrest⟩ := bind_eq_ok.mp hrest
  obtain ⟨-, rfl⟩ := transitionTask_eq_ok.mp htask'
  obtain rfl := Except.ok.inj hrest
  exact ⟨lease, task, _, _, hpresented, hclaimed, rfl, rfl,
    hpresented.released rfl rfl rfl ⟨_, rfl, rfl, .refl _⟩⟩

end Handling
end Methods
end Ajenda.Runtime
