import Ajenda.DeliveryFrame
import Ajenda.LeaseFencing

/-!
# What each transaction strands

One lemma for each transaction. Only a release, a recovery and an admission over a dispatch
that is published or cancelled queue a task without arming its dispatch, and only a completion
closes the dependency of a deferred task.
-/
namespace Ajenda.Runtime
open JsonValue KeyedRows FiniteTable

section Work
variable {env : Env} {amb : Ambient} {P : String → Prop} {s s' : Session}
  {tenantId leaseId workerId : String}

theorem recordOutput_frame {task task' : ExecutionTask} {lease : WorkerLease}
    {taskOutput : Option Fields} {outputReason : Option String}
    (h : recordOutput env s task lease taskOutput outputReason = .ok (s', task')) :
    s'.db.dispatches = s.db.dispatches ∧ s'.db.missions = s.db.missions ∧
      task'.missionId = task.missionId ∧ ∀ key,
        key ∉ ["handler_result", "output", "materialized_artifacts"] →
          Fields.get task'.metadata key = Fields.get task.metadata key := by
  cases taskOutput with
  | none =>
    obtain ⟨rfl, rfl⟩ := Prod.mk.inj (Except.ok.inj h)
    exact ⟨rfl, rfl, rfl, fun _ _ => rfl⟩
  | some taskOutput =>
    obtain ⟨records, -, hrest⟩ := bind_eq_ok.mp h
    obtain ⟨rfl, rfl⟩ := Prod.mk.inj (Except.ok.inj hrest)
    refine ⟨rfl, rfl, by split_ifs <;> rfl, fun key hkey => ?_⟩
    simp only [List.mem_cons, List.not_mem_nil, or_false, not_or] at hkey
    split_ifs <;> simp [mirrorTaskOutput, Fields.get_set, hkey]

theorem rollupRuns_saveMission {mission' : Mission} {missionId tenantId : String}
    (mission : Mission) (hget : s.db.missions.get mission.id = some mission) (hid : mission'.id = mission.id)
    (htenant : mission'.tenantId = mission.tenantId)
    (hterminal : mission'.status.terminal = mission.status.terminal)
    (h : rollupRuns s.db missionId tenantId = true) :
    rollupRuns (s.saveMission mission').db missionId tenantId = true := by
  unfold rollupRuns at *
  rw [get_saveMission hget hid]
  split_ifs with hkey
  · rw [hkey, hget] at h
    simpa [htenant, hterminal] using h
  · exact h

theorem reconcileReviewHold_terminal (db : Db) (now : String) (mission : Mission) :
    (reconcileReviewHold db now mission).status.terminal = mission.status.terminal := by
  rcases reconcileReviewHold_status db now mission with h | ⟨h, h'⟩
  · rw [h]
  · rw [h, h']
    rfl

theorem reconcileReviewHold_row (db : Db) (now : String) (mission : Mission) :
    (reconcileReviewHold db now mission).id = mission.id ∧
      (reconcileReviewHold db now mission).tenantId = mission.tenantId := by
  unfold reconcileReviewHold
  dsimp only
  split_ifs <;> exact ⟨rfl, rfl⟩

theorem rollupRuns_refresh {task : ExecutionTask} {missionId tenantId : String}
    (h : rollupRuns s.db missionId tenantId = true) :
    rollupRuns (refreshDeliverableReadModel env amb s task).db missionId tenantId = true := by
  unfold refreshDeliverableReadModel
  cases hload : getMissionForTenant s amb.now task.missionId task.tenantId with
  | none => exact h
  | some loaded =>
    obtain ⟨s₁, mission⟩ := loaded
    unfold getMissionForTenant at hload
    split at hload
    · cases hload
    next m hm =>
      split_ifs at hload
      obtain ⟨rfl, rfl⟩ := Prod.mk.inj (Option.some.inj hload)
      have hm : s.db.missions.get m.id = some m := Rows.get_self hm
      obtain ⟨hid, htenant⟩ := reconcileReviewHold_row s.db amb.now m
      have hfirst := rollupRuns_saveMission _ hm hid htenant
        (reconcileReviewHold_terminal s.db amb.now m) h
      dsimp only
      split
      · exact hfirst
      · refine rollupRuns_saveMission (reconcileReviewHold s.db amb.now m) ?_ rfl rfl rfl hfirst
        exact (get_saveMission hm hid _).trans (if_pos hid)

theorem refreshDeliverableReadModel_db (s : Session) (task : ExecutionTask) :
    (refreshDeliverableReadModel env amb s task).db = { s.db with
      missions := (refreshDeliverableReadModel env amb s task).db.missions } := by
  unfold refreshDeliverableReadModel getMissionForTenant
  cases s.db.missions.get task.missionId with
  | none => rfl
  | some mission =>
    dsimp only
    split_ifs
    · dsimp only
      split <;> rfl
    · rfl

/-- No stop was requested for the task and its output meets the declared contract. -/
def completionCommits (env : Env) (task : ExecutionTask) (taskOutput runtimeMetadata : Option Fields) :
    Bool :=
  let task := task.withMetadata (mergeRuntimeMetadata task.metadata runtimeMetadata)
  !(fieldOr task.metadata "cancel_requested").truthy &&
    (env.validateDeclaredOutput task taskOutput).isOk

/-- The rows with the task completed. -/
def Db.withCompleted (db : Db) (task : ExecutionTask) : Db :=
  { db with tasks := db.tasks.set (task.withStatus .completed) }

/-- A completion up to its rollup. -/
theorem complete_steps {taskOutput : Option Fields} {outputReason : Option String}
    {runtimeMetadata : Option Fields}
    (h : complete env amb s tenantId leaseId workerId taskOutput outputReason runtimeMetadata =
      .ok s') :
    ∃ lease task task' s₁, Presented s tenantId leaseId workerId lease task ∧
      task.status = .running ∧ task'.status = .completed ∧
      Kept (some task.missionId) task task' ∧ s₁.db.tasks = s.db.tasks.set task' ∧
      s₁.db.dispatches = s.db.dispatches ∧
      (rollupRuns s.db task.missionId task.tenantId = true →
        rollupRuns s₁.db task.missionId task.tenantId = true) ∧
      completionCommits env task taskOutput runtimeMetadata = true ∧
      maybeRollupMissionStatus env amb env.recursionLimit s₁ task' = .ok s' := by
  obtain ⟨lease, hlease, hrest⟩ := bind_eq_ok.mp h
  obtain ⟨task, htask, hrest⟩ := bind_eq_ok.mp hrest
  have hpresented := presented_of_eq_ok hlease htask
  dsimp only at hrest
  split_ifs at hrest with hrunning hcancel
  · rw [not_not] at hrunning
    exact absurd hrest (completeCancelRequested_ne_ok hrunning)
  · rw [not_not] at hrunning
    obtain ⟨⟨⟩, hvalid, hrest⟩ := bind_eq_ok.mp hrest
    obtain ⟨task₁, htask₁, hrest⟩ := bind_eq_ok.mp hrest
    obtain ⟨-, rfl⟩ := transitionTask_eq_ok.mp htask₁
    obtain ⟨lease', -, hrest⟩ := bind_eq_ok.mp hrest
    obtain ⟨⟨s₂, task'⟩, houtput, hrollup⟩ := bind_eq_ok.mp hrest
    have hcommits : completionCommits env task taskOutput runtimeMetadata = true := by
      have hstop : (fieldOr (mergeRuntimeMetadata task.metadata runtimeMetadata)
          "cancel_requested").truthy = false := by simpa using hcancel
      simp only [completionCommits, ExecutionTask.withMetadata_metadata, hstop, hvalid]
      rfl
    obtain ⟨htasks, -, hid, htenant, hstatus, -⟩ := recordOutput_eq_ok houtput
    obtain ⟨hdispatches, hmissions, hmission, hfields⟩ := recordOutput_frame houtput
    have hmerged : ∀ key ∉ ["runtime_causal_observations", "input_binding_audit",
        "tool_invocation", "failure", "handler_result", "output", "materialized_artifacts"],
        Fields.get task'.metadata key = Fields.get task.metadata key := by
      intro key hkey
      simp only [List.mem_cons, List.not_mem_nil, or_false, not_or] at hkey
      rw [hfields key (by simp [hkey])]
      simp only [ExecutionTask.withMetadata_metadata, ExecutionTask.withStatus_metadata]
      rw [Fields.get_pop_ne _ hkey.2.2.2.1]
      exact mergeRuntimeMetadata_get (by simp [hkey])
    have hruns : rollupRuns s.db task.missionId task.tenantId = true →
        rollupRuns (s₂.saveTask task').db task.missionId task.tenantId = true := by
      simp only [rollupRuns, Session.saveTask, hmissions, Session.saveLease, imp_self]
    refine ⟨lease, task, task', _, hpresented, hrunning, hstatus, ?_, ?_, ?_,
      fun hr => rollupRuns_refresh (hruns hr), hcommits, hrollup⟩
    · exact .of_fields hid htenant hmission (hmerged _ (by simp)) (hmerged _ (by simp))
        (fun _ => .inr rfl) (fun hc => by rw [hrunning] at hc; cases hc)
    · rw [refreshDeliverableReadModel_db]
      exact congrArg (·.set task') htasks
    · rw [refreshDeliverableReadModel_db]
      exact hdispatches

section Plain
variable (hplain : ∀ taskId, ':' ∉ (amb.dispatchId taskId).toList)
include hplain

/-- A completion whose rollup runs strands no task; another one strands what the completed
dependency strands. -/
theorem complete_delivers {taskOutput : Option Fields} {outputReason : Option String}
    {runtimeMetadata : Option Fields}
    (h : complete env amb s tenantId leaseId workerId taskOutput outputReason runtimeMetadata =
      .ok s') :
    (∀ tenantId keys, Ledger tenantId s.db keys → Ledger tenantId s'.db keys) ∧
      ∃ lease task, Presented s tenantId leaseId workerId lease task ∧ task.status = .running ∧
        completionCommits env task taskOutput runtimeMetadata = true ∧
        ∀ id, Stranded env s'.db id → Stranded env s.db id ∨
          (rollupRuns s.db task.missionId task.tenantId = false ∧
            Stranded env (s.db.withCompleted task) id) := by
  obtain ⟨lease, task, task', s₁, hpresented, hrunning, hcompleted, hkept, htasks, hdispatches,
    hruns₁, hcommits, hrollup⟩ := complete_steps h
  have hget : s.db.tasks.get task.id = some task := by
    have := hpresented.taskRow
    rwa [← Rows.key_of_get this] at this
  have hsave : Advance env (some task.missionId)
      (fun id => ∃ u, s.db.tasks.get id = some u ∧ u.missionId = task.missionId) s
      (s.saveTask task') :=
    .saveTask hget hkept (fun hq => by rw [hcompleted] at hq; cases hq)
      fun id u hu hm => ⟨u, hu, Option.some.inj hm⟩
  have hsaved : TasksKept (some task.missionId) s.db s₁.db := by
    have := hsave.tasks
    rwa [TasksKept, ← show s₁.db.tasks = (s.saveTask task').db.tasks from htasks] at this
  have hadvance : Advance env none (fun _ => False) s₁ s' :=
    maybeRollupMissionStatus_advance hplain hrollup
  refine ⟨fun _ keys hl => hadvance.ledger _ keys (hl.kept hdispatches hsaved), lease, task,
    hpresented, hrunning, hcommits, fun id hs => ?_⟩
  have hs₁ := (hadvance.stranded id hs).resolve_left not_false
  obtain ⟨v, hv, hqueued, hdisarmed, hidle⟩ := hs₁
  have hid : id ≠ task.id := by
    rintro rfl
    rw [htasks] at hv
    have := (get_saveTask hget hkept.id task.id).trans (if_pos rfl)
    obtain rfl := Option.some.inj (this.symm.trans hv)
    rw [hcompleted] at hqueued
    cases hqueued
  have hsame : s₁.db.tasks.get id = s.db.tasks.get id := by
    rw [htasks]
    exact (get_saveTask hget hkept.id id).trans (if_neg hid)
  have harmed : Armed s.db id → Armed s₁.db id := fun ha => by rwa [Armed, hdispatches]
  by_cases hmission : v.missionId = task.missionId
  · cases hruns : rollupRuns s.db task.missionId task.tenantId with
    | true =>
      -- the rollup looks at the tasks of the mission
      have hlost : Lost s₁.db id := by
        refine maybeRollupMissionStatus_settles hplain hrollup ?_ hv ?_ hs
        · rw [hkept.missionId, hkept.tenantId]
          exact hruns₁ hruns
        · rw [hmission, hkept.missionId]
      obtain ⟨u, hu, hqueued, hdisarmed, hidle⟩ := hlost
      exact .inl (Lost.stranded ⟨u, hsame ▸ hu, hqueued, fun ha => hdisarmed (harmed ha), hidle⟩)
    | false =>
      -- the rows differ from the completed ones in the metadata of the completed task only
      have hlike : TasksKept none (s.db.withCompleted task) s₁.db := by
        rw [TasksKept, htasks]
        refine Rows.related_set_set Kept.refl s.db.tasks hkept.id ⟨hkept.id, hkept.tenantId,
          hkept.missionId, hkept.node, hkept.dependencies, fun _ => .inl rfl, fun hc => ?_⟩
        cases hc
      have hrow : s₁.db.tasks.get id = (s.db.withCompleted task).tasks.get id := by
        rw [hsame]
        exact ((get_saveTask (u := task.withStatus .completed) hget rfl id).trans
          (if_neg hid)).symm
      exact .inr ⟨rfl, Stranded.back ⟨v, hv, hqueued, hdisarmed, hidle⟩ hlike hrow harmed (by simp)⟩
  · refine .inl (Stranded.back ⟨v, hv, hqueued, hdisarmed, hidle⟩ hsaved hsame harmed
      fun u hu hum => hmission ?_)
    obtain rfl := Option.some.inj ((hsame.symm.trans hv).symm.trans hu)
    exact Option.some.inj hum

theorem fail_advance {reason evidenceId : String}
    (h : fail env amb s tenantId leaseId workerId reason evidenceId = .ok s') :
    Advance env none P s s' := by
  obtain ⟨lease, hlease, hrest⟩ := bind_eq_ok.mp h
  obtain ⟨task, htask, hrest⟩ := bind_eq_ok.mp hrest
  have hget := Rows.get_self (getTaskForLease_eq_ok htask).1
  split_ifs at hrest with haccepted
  obtain ⟨task', htask', hrest⟩ := bind_eq_ok.mp hrest
  obtain ⟨hallowed, rfl⟩ := transitionTask_eq_ok.mp htask'
  obtain ⟨lease', -, hrollup⟩ := bind_eq_ok.mp hrest
  have hsaved : Advance env none P s (s.saveTask ((task.withStatus .failed).withMetadata
      (Fields.set task.metadata "failure" (handlerFailure amb.now reason)))) := by
    refine .saveIdle hget (.of_fields rfl rfl rfl ?_ ?_ (fun hc => by cases hc) fun hc => ?_)
      (by simp)
    · simp [Fields.get_set]
    · simp [Fields.get_set]
    · rw [hc] at hallowed
      simp [taskAllowed] at hallowed
  refine (hsaved.trans (.of_eq ?_ ?_)).trans (maybeRollupMissionStatus_advance hplain hrollup)
  · rw [refreshDeliverableReadModel_db]
    rfl
  · rw [refreshDeliverableReadModel_db]
    rfl

theorem cancelTask_advance {taskId reason : String}
    (h : cancelTask env amb s tenantId taskId reason = .ok s') : Advance env none P s s' := by
  unfold cancelTask at h
  split at h
  · cases h
  next task hget =>
    have hget : s.db.tasks.get task.id = some task := Rows.get_self hget
    split_ifs at h with htenant hterminal hworking
    · obtain rfl := Except.ok.inj h
      exact .refl s
    · refine .trans ?_ (maybeRollupMissionStatus_advance hplain h)
      refine .saveIdle hget (.of_fields rfl rfl rfl ?_ ?_ .inl fun hc => hc) ?_
      · simp [Fields.get_set]
      · simp [Fields.get_set]
      · rcases hworking with hw | hw <;> simp [hw]
    · obtain ⟨task', htask', hrollup⟩ := bind_eq_ok.mp h
      obtain ⟨-, rfl⟩ := transitionTask_eq_ok.mp htask'
      have hkept : Kept none task ((task.withStatus .cancelled).withMetadata
          (Fields.set task.metadata "cancel_reason" (.str reason))) := by
        refine .of_fields rfl rfl rfl ?_ ?_ (fun hc => by cases hc) fun _ => rfl
        all_goals simp [Fields.get_set]
      have hsaved := (get_saveTask hget hkept.id task.id).trans (if_pos rfl)
      exact ((Advance.saveIdle hget hkept (by simp)).trans (cancel_advance hsaved rfl)).trans
        (maybeRollupMissionStatus_advance hplain hrollup)

end Plain

theorem heartbeat_advance (h : heartbeat s tenantId leaseId workerId = .ok s') :
    Advance env none P s s' := by
  obtain ⟨lease, -, hrest⟩ := bind_eq_ok.mp h
  split_ifs at hrest
  obtain ⟨lease', -, hrest⟩ := bind_eq_ok.mp hrest
  obtain rfl := Except.ok.inj hrest
  exact .of_eq rfl rfl

theorem startExecution_advance (h : startExecution s tenantId leaseId workerId = .ok s') :
    Advance env none P s s' := by
  obtain ⟨lease, -, hrest⟩ := bind_eq_ok.mp h
  obtain ⟨task, htask, hrest⟩ := bind_eq_ok.mp hrest
  have hget := Rows.get_self (getTaskForLease_eq_ok htask).1
  split_ifs at hrest with hclaimed
  · obtain ⟨lease', -, hrest⟩ := bind_eq_ok.mp hrest
    obtain ⟨task', htask', hrest⟩ := bind_eq_ok.mp hrest
    obtain ⟨-, rfl⟩ := transitionTask_eq_ok.mp htask'
    obtain rfl := Except.ok.inj hrest
    refine (Advance.saveLease lease').trans (.saveIdle (t := task) hget
      (.of_fields rfl rfl rfl ?_ ?_ (fun hc => by cases hc) fun hc => ?_) (by simp))
    · simp [Fields.get_set]
    · simp [Fields.get_set]
    · rw [hclaimed] at hc
      cases hc
  · obtain rfl := Except.ok.inj hrest
    exact .refl s

theorem blockCompletionFailure_advance
    (h : blockCompletionFailure s tenantId leaseId workerId = .ok s') :
    Advance env none P s s' := by
  obtain ⟨lease, -, hrest⟩ := bind_eq_ok.mp h
  obtain ⟨task, htask, hrest⟩ := bind_eq_ok.mp hrest
  have hget := Rows.get_self (getTaskForLease_eq_ok htask).1
  split_ifs at hrest with hrunning
  rw [not_not] at hrunning
  obtain ⟨task', htask', hrest⟩ := bind_eq_ok.mp hrest
  obtain ⟨-, rfl⟩ := transitionTask_eq_ok.mp htask'
  obtain ⟨lease', -, hrest⟩ := bind_eq_ok.mp hrest
  obtain rfl := Except.ok.inj hrest
  refine .trans (.saveIdle hget (.withStatus (fun hc => by cases hc) fun hc => ?_) ?_)
    (.of_eq rfl rfl)
  · rw [hrunning] at hc
    cases hc
  · simp

theorem Handled.settled {lease lease' : WorkerLease} {task task' : ExecutionTask}
    (h : Handled env s s' lease lease' task task')
    (hstatus : task'.status = .completed ∨ task'.status = .failed) :
    s'.db.tasks.get lease.taskId = some task' := by
  obtain ⟨s₁, htasks, -, hrolled⟩ := h.rolled
  have hrow : s₁.db.tasks.get lease.taskId = some task' := by
    rw [htasks, ← h.owns]
    exact (get_saveTask h.taskRow h.taskId task.id).trans (if_pos rfl)
  obtain ⟨t', ht', hmoves⟩ := hrolled.kept _ _ hrow
  rw [ht', settled_of_moves hmoves hstatus]

theorem blockCompletionFailure_row
    (h : blockCompletionFailure s tenantId leaseId workerId = .ok s') :
    ∃ lease task', s.db.leases.get leaseId = some lease ∧
      s'.db.tasks.get lease.taskId = some task' ∧ task'.status = .blocked := by
  obtain ⟨lease, hlease, hrest⟩ := bind_eq_ok.mp h
  obtain ⟨task, htask, hrest⟩ := bind_eq_ok.mp hrest
  obtain ⟨hget, hid⟩ := getTaskForLease_eq_ok htask
  split_ifs at hrest
  obtain ⟨task', htask', hrest⟩ := bind_eq_ok.mp hrest
  obtain ⟨-, rfl⟩ := transitionTask_eq_ok.mp htask'
  obtain ⟨lease', -, hrest⟩ := bind_eq_ok.mp hrest
  obtain rfl := Except.ok.inj hrest
  refine ⟨lease, task.withStatus .blocked, (getOwnedLease_eq_ok hlease).1, ?_, rfl⟩
  rw [← hid]
  exact saveTask_row (task.withStatus .blocked) (Rows.get_self hget) rfl

variable (env) in
/-- A release queues the task of its lease. -/
theorem release_advance (h : release s tenantId leaseId workerId = .ok s') :
    ∃ lease, s.db.leases.get leaseId = some lease ∧
      Advance env none (· = lease.taskId) s s' := by
  obtain ⟨lease, hlease, hrest⟩ := bind_eq_ok.mp h
  obtain ⟨task, htask, hrest⟩ := bind_eq_ok.mp hrest
  obtain ⟨hrow, hid⟩ := getTaskForLease_eq_ok htask
  have hget := Rows.get_self hrow
  obtain ⟨⟨⟩, -, hrest⟩ := bind_eq_ok.mp hrest
  obtain ⟨lease', -, hrest⟩ := bind_eq_ok.mp hrest
  obtain ⟨task', htask', hrest⟩ := bind_eq_ok.mp hrest
  obtain ⟨hallowed, rfl⟩ := transitionTask_eq_ok.mp htask'
  obtain rfl := Except.ok.inj hrest
  refine ⟨lease, (getOwnedLease_eq_ok hlease).1, (Advance.saveLease lease').trans
    (.saveTask (t := task) hget (.withStatus (fun hc => by cases hc) fun hc => ?_)
      (fun _ => hid) (by simp))⟩
  rw [hc] at hallowed
  simp [taskAllowed] at hallowed

end Work

section Maintenance
variable {env : Env} {P : String → Prop} {s s' : Session}

/-- Saving a task as it is. -/
theorem Advance.saveSame {t : ExecutionTask} (hget : s.db.tasks.get t.id = some t) :
    Advance env none P s (s.saveTask t) := by
  have hrow : ∀ id, (s.saveTask t).db.tasks.get id = s.db.tasks.get id := fun id => by
    rw [get_saveTask hget rfl]
    split_ifs with hid
    · rw [hid, hget]
    · rfl
  have htasks : TasksKept none s.db (s.saveTask t).db := .saveTask hget (.refl t)
  exact ⟨htasks, fun _ keys hl => hl.kept rfl htasks,
    fun id hs => .inr (hs.back htasks (hrow id) (fun h => h) (by simp))⟩

theorem recoverTask_cases {task task' : ExecutionTask} {maxRetries : ℕ}
    (h : recoverTask task maxRetries = .ok task') :
    (recoveryMove task maxRetries = .none ∧ task' = task) ∨
      (recoveryMove task maxRetries = .deadLetter ∧ task'.status = .deadLettered) ∨
      (recoveryMove task maxRetries = .requeue ∧ task'.status = .queued) := by
  unfold recoverTask at h
  cases hmove : recoveryMove task maxRetries with
  | none =>
    rw [hmove] at h
    exact .inl ⟨rfl, (Except.ok.inj h).symm⟩
  | deadLetter =>
    rw [hmove] at h
    obtain ⟨task₁, -, hrest⟩ := bind_eq_ok.mp h
    obtain ⟨-, rfl⟩ := transitionTask_eq_ok.mp hrest
    exact .inr (.inl ⟨rfl, rfl⟩)
  | requeue =>
    rw [hmove] at h
    obtain ⟨task₁, -, hrest⟩ := bind_eq_ok.mp h
    obtain ⟨-, rfl⟩ := transitionTask_eq_ok.mp hrest
    exact .inr (.inr ⟨rfl, rfl⟩)

theorem recoveryMove_working {task : ExecutionTask} {maxRetries : ℕ}
    (h : recoveryMove task maxRetries ≠ .none) : task.status = .running ∨ task.status = .claimed := by
  unfold recoveryMove at h
  split_ifs at h <;> first | assumption | exact absurd rfl h

/-- A recovery strands at most the task it queues again. -/
theorem recoverLease_advance {maxRetries : ℕ} {leaseId : String} {lease : WorkerLease}
    {task : ExecutionTask} (hlease : s.db.leases.get leaseId = some lease)
    (htask : s.db.tasks.get lease.taskId = some task)
    (h : recoverLease s maxRetries leaseId = .ok s') :
    Advance env none (· = task.id) s s' ∧
      (recoveryMove task maxRetries ≠ .requeue → Advance env none P s s') := by
  have hget := Rows.get_self htask
  unfold recoverLease at h
  rw [hlease] at h
  dsimp only at h
  rw [htask] at h
  dsimp only at h
  split_ifs at h
  · obtain rfl := Except.ok.inj h
    exact ⟨.refl s, fun _ => .refl s⟩
  · obtain ⟨lease', -, hrest⟩ := bind_eq_ok.mp h
    obtain ⟨task', htask', hrest⟩ := bind_eq_ok.mp hrest
    obtain rfl := Except.ok.inj hrest
    have hfields := recoverTask_eq_ok htask'
    have hsaved : ∀ Q, Advance env none Q s (s.saveLease lease') := fun Q => .of_eq rfl rfl
    rcases recoverTask_cases htask' with ⟨hmove, rfl⟩ | ⟨hmove, hstatus⟩ | ⟨hmove, hstatus⟩
    · exact ⟨(hsaved _).trans (.saveSame hget), fun _ => (hsaved _).trans (.saveSame hget)⟩
    all_goals
      have hworking := recoveryMove_working (by rw [hmove]; simp)
      have hkept : Kept none task task' := by
        rw [hfields]
        refine .of_fields rfl rfl rfl rfl rfl (fun hc => ?_) fun hc => ?_
        · rw [hstatus] at hc
          cases hc
        · rcases hworking with hw | hw <;> rw [hw] at hc <;> cases hc
    · have hidle : task'.status ≠ .queued := by simp [hstatus]
      exact ⟨(hsaved _).trans (.saveIdle hget hkept hidle),
        fun _ => (hsaved _).trans (.saveIdle hget hkept hidle)⟩
    · exact ⟨(hsaved _).trans (.saveTask hget hkept (fun _ => rfl) (by simp)),
        fun hne => absurd hmove hne⟩

/-- A recovery over the retry limit dead-letters its task. -/
theorem recoverLease_deadLettered {maxRetries : ℕ} {leaseId : String} {lease : WorkerLease}
    {task : ExecutionTask} (hlease : s.db.leases.get leaseId = some lease)
    (htask : s.db.tasks.get lease.taskId = some task) (hlive : lease.status.live = true)
    (hmove : recoveryMove task maxRetries = .deadLetter)
    (h : recoverLease s maxRetries leaseId = .ok s') :
    ∃ task', s'.db.tasks.get task.id = some task' ∧ task'.status = .deadLettered := by
  have hget := Rows.get_self htask
  unfold recoverLease at h
  rw [hlease] at h
  dsimp only at h
  rw [htask] at h
  dsimp only at h
  rw [if_neg (by simp [hlive])] at h
  obtain ⟨lease', -, hrest⟩ := bind_eq_ok.mp h
  obtain ⟨task', htask', hrest⟩ := bind_eq_ok.mp hrest
  obtain rfl := Except.ok.inj hrest
  have hid : task'.id = task.id := by rw [recoverTask_eq_ok htask']
  have hstatus : task'.status = .deadLettered := by
    rcases recoverTask_cases htask' with ⟨hm, -⟩ | ⟨-, hs⟩ | ⟨hm, -⟩
    · rw [hmove] at hm
      cases hm
    · exact hs
    · rw [hmove] at hm
      cases hm
  exact ⟨task', hid ▸ saveTask_row (s := s.saveLease lease') task' hget hid, hstatus⟩

theorem enterRecovery_cases {task task' : ExecutionTask} (h : enterRecovery task = .ok task') :
    task' = task ∨ task' = task.withStatus .recovering := by
  unfold enterRecovery at h
  split_ifs at h
  · exact .inr (transitionTask_eq_ok.mp h).2
  · exact .inl (Except.ok.inj h).symm

theorem requeueOrphan_advance {tenantId taskId : String}
    (h : requeueOrphan s tenantId taskId = .ok s') : Advance env none (· = taskId) s s' := by
  unfold requeueOrphan at h
  split at h
  · obtain rfl := Except.ok.inj h
    exact .refl s
  next task hrow =>
    have hget := Rows.get_self hrow
    have hid : task.id = taskId := Rows.key_of_get hrow
    split_ifs at h
    · obtain rfl := Except.ok.inj h
      exact .refl s
    · split at h
      next hrunning =>
        obtain ⟨task₁, htask₁, hrest⟩ := bind_eq_ok.mp h
        obtain ⟨task₂, htask₂, hrest⟩ := bind_eq_ok.mp hrest
        obtain ⟨-, rfl⟩ := transitionTask_eq_ok.mp htask₂
        obtain rfl := Except.ok.inj hrest
        have hkept : Kept none task
            ({ task₁ with retryCount := task₁.retryCount + 1 }.withStatus .queued) := by
          refine .of_fields ?_ ?_ ?_ ?_ ?_ (fun hc => by cases hc)
            (fun hc => by rw [hrunning] at hc; cases hc)
          all_goals rcases enterRecovery_cases htask₁ with rfl | rfl <;> rfl
        exact .saveTask hget hkept (fun _ => hid) (by simp)
      next hclaimed =>
        obtain ⟨task₁, htask₁, hrest⟩ := bind_eq_ok.mp h
        obtain ⟨-, rfl⟩ := transitionTask_eq_ok.mp htask₁
        obtain rfl := Except.ok.inj hrest
        exact .saveTask hget (.withStatus (fun hc => by cases hc)
          fun hc => by rw [hclaimed] at hc; cases hc) (fun _ => hid) (by simp)
      next hrecovering =>
        obtain ⟨task₁, htask₁, hrest⟩ := bind_eq_ok.mp h
        obtain ⟨-, rfl⟩ := transitionTask_eq_ok.mp htask₁
        obtain rfl := Except.ok.inj hrest
        exact .saveTask hget (.withStatus (fun hc => by cases hc)
          fun hc => by rw [hrecovering] at hc; cases hc) (fun _ => hid) (by simp)
      · obtain rfl := Except.ok.inj h
        exact .refl s

end Maintenance

section Admission
variable {env : Env} {amb : Ambient} {P : String → Prop} {s s' : Session}
  {tenantId taskId : String}

theorem not_cancelled_of_allowed {status target : ExecutionTaskState}
    (h : target ∈ taskAllowed status) : status ≠ .cancelled := by
  rintro rfl
  simp [taskAllowed] at h

theorem placeInReview_advance {task task' : ExecutionTask}
    (hget : s.db.tasks.get task.id = some task) (h : placeInReview s task = .ok (s', task')) :
    Advance env none P s s' := by
  obtain ⟨task₁, htask₁, hrest⟩ := bind_eq_ok.mp h
  obtain ⟨hallowed, rfl⟩ := transitionTask_eq_ok.mp htask₁
  obtain ⟨rfl, -⟩ := Prod.mk.inj (Except.ok.inj hrest)
  have hcancelled := not_cancelled_of_allowed hallowed
  refine .saveIdle hget ?_ (by split_ifs <;> simp)
  split_ifs
  · refine .of_fields rfl rfl rfl ?_ ?_ (fun hc => by cases hc) fun hc => absurd hc hcancelled
    all_goals simp [Fields.get_set]
  · exact .withStatus (fun hc => by cases hc) fun hc => absurd hc hcancelled

theorem placeInReview_row {task task' : ExecutionTask}
    (hget : s.db.tasks.get task.id = some task) (h : placeInReview s task = .ok (s', task')) :
    s'.db.tasks.get task'.id = some task' := by
  obtain ⟨task₁, htask₁, hrest⟩ := bind_eq_ok.mp h
  obtain ⟨-, rfl⟩ := transitionTask_eq_ok.mp htask₁
  obtain ⟨rfl, rfl⟩ := Prod.mk.inj (Except.ok.inj hrest)
  exact saveTask_row _ hget (by split_ifs <;> rfl)

theorem markDeadLetter_advance (h : markDeadLetter s tenantId taskId = .ok s') :
    Advance env none P s s' := by
  obtain ⟨task, htask, hrest⟩ := bind_eq_ok.mp h
  obtain ⟨task₁, htask₁, hrest⟩ := bind_eq_ok.mp hrest
  obtain ⟨hallowed, rfl⟩ := transitionTask_eq_ok.mp htask₁
  obtain rfl := Except.ok.inj hrest
  exact .saveIdle (requireTask_eq_ok htask).1 (.withStatus (fun hc => by cases hc)
    fun hc => absurd hc (not_cancelled_of_allowed hallowed)) (by simp)

theorem finishCancelMission_advance {missionId reason : String}
    (h : finishCancelMission amb s tenantId missionId reason = .ok s') :
    Advance env none P s s' := by
  unfold finishCancelMission at h
  split at h
  · cases h
  · split_ifs at h
    · obtain rfl := Except.ok.inj h
      exact .refl s
    · obtain ⟨mission, -, hrest⟩ := bind_eq_ok.mp h
      obtain rfl := Except.ok.inj hrest
      exact .of_eq rfl rfl

/-- The dispatch of the task, if it has one, is held for review or pending. -/
def admissible (db : Db) (tenantId taskId : String) : Bool :=
  match db.dispatchForTask tenantId taskId with
  | none => true
  | some dispatch => dispatch.status = .heldReview || dispatch.status = .pending

theorem recordTaskAdmission_db {withinQuota held : Bool} {task : ExecutionTask}
    (h : recordTaskAdmission amb withinQuota s task held = .ok s') :
    s'.db = { s.db with dispatches := s'.db.dispatches } := by
  obtain ⟨⟨s₁, created⟩, hadmission, hrest⟩ := bind_eq_ok.mp h
  dsimp only at hrest
  split_ifs at hrest
  obtain rfl := Except.ok.inj hrest
  exact admit_db hadmission

theorem queueTask_missions {gate : Gate} {withinQuota ok : Bool}
    (h : queueTask amb s tenantId taskId gate withinQuota = .ok (s', ok)) :
    s'.db.missions = s.db.missions := by
  obtain ⟨task, htask, hrest⟩ := bind_eq_ok.mp h
  cases gate with
  | denied =>
    obtain ⟨rfl, -⟩ := Prod.mk.inj (Except.ok.inj hrest)
    rfl
  | review =>
    obtain ⟨⟨s₁, task₁⟩, hplace, hrest⟩ := bind_eq_ok.mp hrest
    obtain ⟨s₂, hadmission, hrest⟩ := bind_eq_ok.mp hrest
    obtain ⟨rfl, -⟩ := Prod.mk.inj (Except.ok.inj hrest)
    obtain ⟨task₂, -, hrest⟩ := bind_eq_ok.mp hplace
    obtain ⟨rfl, -⟩ := Prod.mk.inj (Except.ok.inj hrest)
    rw [recordTaskAdmission_db hadmission]
    rfl
  | admitted =>
    obtain ⟨task₁, -, hrest⟩ := bind_eq_ok.mp hrest
    obtain ⟨s₁, hadmission, hrest⟩ := bind_eq_ok.mp hrest
    have hs : s' = s₁ := by
      split at hrest
      · split_ifs at hrest
        exact (Prod.mk.inj (Except.ok.inj hrest)).1.symm
      · exact (Prod.mk.inj (Except.ok.inj hrest)).1.symm
    rw [hs, recordTaskAdmission_db hadmission]
    rfl

/-- A queued task will be delivered by its dispatch or is waiting for a dependency. -/
def delivers (env : Env) (db : Db) (tenantId : String) (task : ExecutionTask) : Bool :=
  admissible db tenantId task.id || waiting env db task

variable (hplain : ∀ taskId, ':' ∉ (amb.dispatchId taskId).toList)
include hplain

theorem recordTaskAdmission_dispatched {withinQuota held : Bool} {task : ExecutionTask}
    (hget : s.db.tasks.get task.id = some task)
    (h : recordTaskAdmission amb withinQuota s task held = .ok s') :
    Dispatched s s' ∧ (held = false → admissible s.db task.tenantId task.id = true →
      Armed s'.db task.id) := by
  obtain ⟨⟨s₁, created⟩, hadmission, hrest⟩ := bind_eq_ok.mp h
  dsimp only at hrest
  split_ifs at hrest
  obtain rfl := Except.ok.inj hrest
  obtain ⟨hdispatched, harmed⟩ := admit_dispatched hplain ⟨task, hget, rfl⟩ hadmission
  refine ⟨hdispatched, fun hheld hadmissible => harmed hheld fun d hd => ?_⟩
  simpa [admissible, hd] using hadmissible

variable (env) in
/-- An admission strands at most its task, and that only when it has been admitted and neither
its dispatch nor a deferral delivers it. -/
theorem queueTask_advance {gate : Gate} {withinQuota ok : Bool}
    (h : queueTask amb s tenantId taskId gate withinQuota = .ok (s', ok)) :
    ∃ task, s.db.tasks.get taskId = some task ∧ Advance env none (· = taskId) s s' ∧
      ((gate = .admitted → .queued ∈ taskAllowed task.status →
        delivers env s.db tenantId task = true) → Advance env none P s s') := by
  obtain ⟨task, htask, hrest⟩ := bind_eq_ok.mp h
  obtain ⟨hget, hid, htenant⟩ := requireTask_eq_ok htask
  refine ⟨task, hid ▸ hget, ?_⟩
  cases gate with
  | denied =>
    obtain ⟨rfl, -⟩ := Prod.mk.inj (Except.ok.inj hrest)
    exact ⟨.refl s, fun _ => .refl s⟩
  | review =>
    obtain ⟨⟨s₁, task₁⟩, hplace, hrest⟩ := bind_eq_ok.mp hrest
    obtain ⟨s₂, hadmission, hrest⟩ := bind_eq_ok.mp hrest
    obtain ⟨rfl, -⟩ := Prod.mk.inj (Except.ok.inj hrest)
    have hd := (recordTaskAdmission_dispatched hplain (placeInReview_row hget hplace) hadmission).1
    exact ⟨(placeInReview_advance hget hplace).trans hd.advance,
      fun _ => (placeInReview_advance hget hplace).trans hd.advance⟩
  | admitted =>
    obtain ⟨task₁, htask₁, hrest⟩ := bind_eq_ok.mp hrest
    obtain ⟨hallowed, rfl⟩ := transitionTask_eq_ok.mp htask₁
    obtain ⟨s₁, hadmission, hrest⟩ := bind_eq_ok.mp hrest
    have hs : s' = s₁ := by
      split at hrest
      · split_ifs at hrest
        exact (Prod.mk.inj (Except.ok.inj hrest)).1.symm
      · exact (Prod.mk.inj (Except.ok.inj hrest)).1.symm
    subst hs
    obtain ⟨hd, harmed⟩ := recordTaskAdmission_dispatched hplain
      (saveTask_row (task.withStatus .queued) hget rfl) hadmission
    have hsaved : Advance env none (· = taskId) s (s.saveTask (task.withStatus .queued)) :=
      .saveTask hget (.withStatus (fun hc => by cases hc)
        fun hc => absurd hc (not_cancelled_of_allowed hallowed)) (fun _ => hid) (by simp)
    refine ⟨hsaved.trans hd.advance, fun hdelivers => ?_⟩
    have hdelivers := hdelivers rfl hallowed
    rw [delivers, Bool.or_eq_true, waiting_iff] at hdelivers
    rcases hdelivers with hadmissible | hwaiting
    · exact hsaved.arm hd (hid ▸ harmed rfl (htenant ▸ hadmissible))
    · refine (hsaved.trans hd.advance).settle ?_
      rintro ⟨u, hu, -, -, hidle⟩
      have hrow : s'.db.tasks.get taskId = some (task.withStatus .queued) := by
        rw [hd.tasks, ← hid]
        exact saveTask_row (task.withStatus .queued) hget rfl
      obtain rfl := Option.some.inj (hrow.symm.trans hu)
      have htasks : TasksKept none s.db s'.db :=
        hsaved.tasks.trans (.of_eq hd.tasks)
      exact hidle (hwaiting.kept htasks (by simp) rfl rfl rfl)

theorem approveReviewAndQueue_advance {gate : Gate} {withinQuota : Bool} {grant : Fields}
    {receipt : Fields → Except Error Fields}
    (h : approveReviewAndQueue amb s tenantId taskId gate withinQuota grant receipt = .ok s') :
    ∃ task, s.db.tasks.get taskId = some task ∧ task.status = .pendingReview ∧
      (s.db.missions.get task.missionId).isSome = true ∧ Advance env none (· = taskId) s s' ∧
      ((gate = .admitted → delivers env s.db tenantId task = true) → Advance env none P s s') := by
  obtain ⟨task, htask, hrest⟩ := bind_eq_ok.mp h
  obtain ⟨hget, hid, -⟩ := requireTask_eq_ok htask
  split_ifs at hrest with hreview
  rw [not_not] at hreview
  obtain ⟨⟨s₁, ok⟩, hqueue, hrest⟩ := bind_eq_ok.mp hrest
  dsimp only at hrest
  split_ifs at hrest
  have hother : ∀ key ∉ approvalKeys, Fields.get (Fields.update task.metadata
      (grant.filter fun f => f.1 ∈ approvalKeys)) key = Fields.get task.metadata key := by
    refine fun key hkey => Fields.get_update_of_forall_ne fun f hf hfkey => hkey ?_
    have := List.of_mem_filter hf
    simpa [hfkey] using this
  have hkept : Kept none task (task.withMetadata
      (Fields.update task.metadata (grant.filter fun f => f.1 ∈ approvalKeys))) :=
    .of_fields rfl rfl rfl (hother _ (by simp [approvalKeys])) (hother _ (by simp [approvalKeys]))
      .inl id
  have hgranted : ∀ Q, Advance env none Q s (s.saveTask (task.withMetadata
      (Fields.update task.metadata (grant.filter fun f => f.1 ∈ approvalKeys)))) :=
    fun Q => .saveIdle hget hkept (by simp [hreview])
  obtain ⟨hpresent, hmission⟩ : (s₁.db.missions.get task.missionId).isSome = true ∧
      ∀ Q, Advance env none Q s₁ s' := by
    split at hrest
    · cases hrest
    next mission hrow =>
      obtain ⟨metadata, -, hrest⟩ := bind_eq_ok.mp hrest
      obtain rfl := Except.ok.inj hrest
      exact ⟨by rw [hrow]; rfl, fun Q => .of_eq rfl rfl⟩
  obtain ⟨task₁, htask₁, hadvance, hadmitted⟩ :=
    queueTask_advance (P := P) env hplain hqueue
  have hrow := (get_saveTask hget hkept.id task.id).trans (if_pos rfl)
  rw [hid] at hrow
  obtain rfl := Option.some.inj (hrow.symm.trans htask₁)
  refine ⟨task, hid ▸ hget, hreview, queueTask_missions hqueue ▸ hpresent,
    ((hgranted _).trans hadvance).trans (hmission _), fun hdelivers =>
      ((hgranted _).trans (hadmitted fun hgate _ => ?_)).trans (hmission _)⟩
  have hdelivers := hdelivers hgate
  rw [delivers, Bool.or_eq_true, waiting_iff] at hdelivers ⊢
  refine hdelivers.imp_right fun hwaiting =>
    hwaiting.kept (hgranted fun _ => False).tasks (by simp) rfl hkept.dependencies ?_
  rw [ExecutionTask.dependencyDeferred, ExecutionTask.dependencyDeferred,
    ExecutionTask.withMetadata_metadata, hother _ (by simp [approvalKeys])]

theorem retryTask_advance {gate : Gate} (h : retryTask amb s tenantId taskId gate = .ok s') :
    Advance env none P s s' := by
  obtain ⟨task, htask, hrest⟩ := bind_eq_ok.mp h
  have hget := (requireTask_eq_ok htask).1
  split_ifs at hrest with hfailed
  cases gate with
  | denied =>
    obtain rfl := Except.ok.inj hrest
    exact .refl s
  | review =>
    obtain ⟨⟨s₁, task₁⟩, hplace, hrest⟩ := bind_eq_ok.mp hrest
    obtain rfl := Except.ok.inj hrest
    exact placeInReview_advance hget hplace
  | admitted =>
    obtain ⟨s₁, hreopen, hrest⟩ := bind_eq_ok.mp hrest
    obtain ⟨task₁, htask₁, hrest⟩ := bind_eq_ok.mp hrest
    obtain ⟨hallowed, rfl⟩ := transitionTask_eq_ok.mp htask₁
    obtain ⟨hreopened, -⟩ := reopenFailedMission_eq_ok hreopen
    have hkept : Kept none task (preserveRetryableFailure amb task) := by
      unfold preserveRetryableFailure
      split
      · refine .of_fields rfl rfl rfl ?_ ?_ .inl id
        all_goals simp [Fields.get_set, Fields.get_pop]
      · refine .of_fields rfl rfl rfl ?_ ?_ .inl id
        all_goals simp [Fields.get_pop]
    have hidle : (preserveRetryableFailure amb task).status ≠ .queued := by
      have hstatus : (preserveRetryableFailure amb task).status = task.status := by
        unfold preserveRetryableFailure
        split <;> rfl
      rw [hstatus]
      intro hq
      simp [hq] at hfailed
    have hsaved : ∀ Q, Advance env none Q s s₁ := fun Q =>
      (Advance.saveIdle hget hkept hidle).trans (.of_eq (by rw [hreopened]) (by rw [hreopened]))
    have hget₁ : s₁.db.tasks.get (preserveRetryableFailure amb task).id =
        some (preserveRetryableFailure amb task) := by
      rw [hreopened]
      exact (get_saveTask hget hkept.id _).trans (if_pos hkept.id)
    obtain ⟨hd, harmed⟩ := retry_dispatched hplain
      ⟨_, saveTask_row ((preserveRetryableFailure amb task).withStatus .queued) hget₁ rfl, rfl⟩ hrest
    have hqueued : Advance env none (· = (preserveRetryableFailure amb task).id) s₁
        (s₁.saveTask ((preserveRetryableFailure amb task).withStatus .queued)) :=
      .saveTask hget₁ (.withStatus (fun hc => by cases hc)
        fun hc => absurd hc (not_cancelled_of_allowed hallowed)) (fun _ => rfl) (by simp)
    exact ((hsaved _).trans hqueued).arm hd harmed

end Admission

section Claim
variable {env : Env} {amb : Ambient} {P : String → Prop} {s s' : Session}

/-- Once a completed task is among the candidates, the index holds a completed task. -/
theorem indexFold_completed (l : List ExecutionTask) (existing : Option ExecutionTask)
    (h : (∃ t ∈ l, t.status = .completed) ∨ ∃ t, existing = some t ∧ t.status = .completed) :
    ∃ t, l.foldl (fun existing candidate => match existing with
      | none => some candidate
      | some existing => some (if outranks candidate existing then candidate else existing))
      existing = some t ∧ t.status = .completed := by
  induction l generalizing existing with
  | nil =>
    obtain ⟨t, ht, -⟩ | h := h
    · simp at ht
    · simpa using h
  | cons c l ih =>
    refine ih _ ?_
    rcases h with ⟨t, ht, hc⟩ | ⟨t, rfl, hc⟩
    · rcases List.mem_cons.mp ht with rfl | ht
      · right
        cases existing with
        | none => exact ⟨t, rfl, hc⟩
        | some e =>
          refine ⟨_, rfl, ?_⟩
          split_ifs with hrank
          · exact hc
          · by_contra he
            simp [outranks, indexRank, hc, he] at hrank
      · exact .inl ⟨t, ht, hc⟩
    · right
      refine ⟨_, rfl, ?_⟩
      split_ifs with hrank
      · by_contra hne
        simp [outranks, indexRank, hc, hne] at hrank
      · exact hc

/-- A pending dependency of a claim is open to the rollup too. -/
theorem pendingDependencyKeys_open {task : ExecutionTask} {siblings : List ExecutionTask}
    {key : String} (h : key ∈ pendingDependencyKeys task siblings) :
    ∃ keys raw, task.dependencyKeys = some keys ∧ Json.str raw ∈ keys ∧
      nodeOpen siblings raw = true := by
  obtain ⟨hkey, hpending⟩ := List.mem_filter.mp h
  unfold dependencyKeysForTask at hkey
  split at hkey
  next items hitems =>
    obtain ⟨item, hitem, hblank⟩ := List.mem_filterMap.mp hkey
    cases item with
    | str raw =>
      have hstrip : strip raw ≠ "" ∧ strip raw = key := by
        simpa [nonBlank, and_comm] using hblank
      refine ⟨items, raw, by simp [ExecutionTask.dependencyKeys, hitems], hitem, ?_⟩
      by_contra hclosed
      unfold nodeOpen at hclosed
      split at hclosed
      next d hd =>
        have hdone : d.status = .completed := by simpa using hclosed
        have hmem : d ∈ siblings := List.mem_reverse.mp (List.mem_of_find?_eq_some hd)
        have hnode : graphNodeKeyForTask d = some key := by
          have hraw : d.graphNodeKey = some raw := by
            have := List.find?_some hd
            simpa using this
          unfold ExecutionTask.graphNodeKey at hraw
          split at hraw
          next k hk =>
            obtain rfl := Option.some.inj hraw
            have hne : key ≠ "" := hstrip.2 ▸ hstrip.1
            simp [graphNodeKeyForTask, nonBlank, hk, hstrip.2, hne]
          · cases hraw
        obtain ⟨t, ht, hc⟩ := indexFold_completed
          (siblings.filter fun t => graphNodeKeyForTask t = some key) none
          (.inl ⟨d, List.mem_filter.mpr ⟨hmem, by simpa using hnode⟩, hdone⟩)
        have hindexed : indexedTask siblings key = some t := ht
        simp [hindexed, hc] at hpending
      · exact hclosed rfl
    | _ => simp [nonBlank] at hblank
  · simp at hkey

variable (env) in
theorem takeLease_advance {task task' : ExecutionTask} {lease : WorkerLease}
    {tenantId workerId leaseId : String} (hget : s.db.tasks.get task.id = some task)
    (h : takeLease s task tenantId workerId leaseId = .ok (s', task', lease)) :
    Advance env none P s s' ∧ task'.status = .claimed ∧ Kept none task task' := by
  obtain ⟨-, hallowed, rfl, htask', s₁, hadd, rfl⟩ := takeLease_eq_ok h
  obtain ⟨leases, hinsert, rfl⟩ := addLease_eq_ok hadd
  have hkept : Kept none task task' := by
    rw [htask']
    refine .of_fields rfl rfl rfl ?_ ?_ (fun hc => by cases hc)
      fun hc => absurd hc (not_cancelled_of_allowed hallowed)
    all_goals simp [Fields.get_set]
  have hstatus : task'.status = .claimed := by rw [htask']; rfl
  have hleased : Advance env none P s { s with db := { s.db with leases } } := .of_eq rfl rfl
  refine ⟨hleased.trans ?_, hstatus, hkept⟩
  exact .saveIdle (s := { s with db := { s.db with leases } }) hget hkept (by simp [hstatus])

variable (env) in
/-- A deferral leaves its task waiting for an open dependency. -/
theorem deferForDependencies_advance {task : ExecutionTask} {lease : WorkerLease}
    {pending : List String} (hget : s.db.tasks.get task.id = some task)
    (hclaimed : task.status = .claimed)
    (hpending : pending = pendingDependencyKeys task (s.db.listForMission task.missionId))
    (hne : pending.isEmpty = false) (h : deferForDependencies amb s task lease pending = .ok s') :
    Advance env none P s s' ∧ Idle env s'.db task.id := by
  obtain ⟨lease', -, hrest⟩ := bind_eq_ok.mp h
  obtain ⟨task₁, htask₁, hrest⟩ := bind_eq_ok.mp hrest
  obtain ⟨-, rfl⟩ := transitionTask_eq_ok.mp htask₁
  obtain ⟨task', htask'⟩ : ∃ t, t = (task.withStatus .queued).withMetadata (Fields.pop
      (Fields.set task.metadata "dependency_deferral" (.obj [("pending_keys",
        .arr (pending.map .str)), ("deferred_at", .str amb.now)])) "worker_lease_id") := ⟨_, rfl⟩
  have hs' : (s.saveLease lease').saveTask task' = s' := by
    rw [htask']
    exact Except.ok.inj hrest
  subst hs'
  have hkept : Kept none task task' := by
    rw [htask']
    refine .of_fields rfl rfl rfl ?_ ?_ (fun hc => by cases hc)
      fun hc => by rw [hclaimed] at hc; cases hc
    all_goals simp [Fields.get_set, Fields.get_pop]
  have hdeferred : task'.dependencyDeferred = true := by
    rw [htask']
    simp [ExecutionTask.dependencyDeferred, Fields.get_pop]
  have hleased : ∀ Q, Advance env none Q s (s.saveLease lease') := fun Q => .of_eq rfl rfl
  have hadvance : Advance env none (· = task.id) s ((s.saveLease lease').saveTask task') :=
    (hleased _).trans (.saveTask hget hkept (fun _ => rfl) (by simp))
  have hwaiting : Idle env ((s.saveLease lease').saveTask task').db task.id := by
    intro t ht _
    have hrow : ((s.saveLease lease').saveTask task').db.tasks.get task.id = some task' :=
      (get_saveTask (s := s.saveLease lease') hget hkept.id task.id).trans (if_pos rfl)
    obtain rfl := Option.some.inj (hrow.symm.trans ht)
    obtain ⟨key, hkey⟩ := List.exists_mem_of_ne_nil _ (List.isEmpty_eq_false_iff.mp hne)
    rw [hpending] at hkey
    obtain ⟨keys, raw, hkeys, hraw, hnode⟩ := pendingDependencyKeys_open hkey
    refine ⟨hdeferred, keys, .str raw, hkept.dependencies.trans hkeys, hraw, ?_⟩
    rw [hkept.missionId]
    exact nodeOpen_of_kept (listForMission_kept hadvance.tasks (by simp)) hnode
  exact ⟨hadvance.settle hwaiting.not_stranded, hwaiting⟩

variable (hplain : ∀ taskId, ':' ∉ (amb.dispatchId taskId).toList)
include hplain

theorem cancelStaleTask_advance {task : ExecutionTask}
    (hget : s.db.tasks.get task.id = some task) (h : cancelStaleTask env amb s task = .ok s') :
    Advance env none P s s' ∧ Idle env s'.db task.id := by
  obtain ⟨task', htask', hrest⟩ := bind_eq_ok.mp h
  obtain ⟨-, rfl⟩ := transitionTask_eq_ok.mp htask'
  obtain ⟨s₁, hrollup, hrest⟩ := bind_eq_ok.mp hrest
  obtain rfl := Except.ok.inj hrest
  have hkept : Kept none task (task.withStatus .cancelled) :=
    .withStatus (fun hc => by cases hc) fun _ => rfl
  have hrolled : ∀ Q, Advance env none Q (s.saveTask (task.withStatus .cancelled)) s₁ := fun Q =>
    maybeRollupMissionStatus_advance hplain hrollup
  have hrow : (s.saveTask (task.withStatus .cancelled)).db.tasks.get task.id =
      some (task.withStatus .cancelled) :=
    (get_saveTask hget hkept.id task.id).trans (if_pos rfl)
  obtain ⟨t, ht, htkept⟩ := (hrolled P).tasks.get hrow
  have hcancel : Advance env none P s₁ (cancel s₁ (task.withStatus .cancelled)) :=
    cancel_advance ht (htkept.cancelled rfl)
  refine ⟨((Advance.saveIdle hget hkept (by simp)).trans (hrolled P)).trans hcancel, ?_⟩
  obtain ⟨u, hu, hukept⟩ := hcancel.tasks.get ht
  exact .of_status hu (by simp [hukept.cancelled (htkept.cancelled rfl)])

/-- What a claim knows about the task of a message that it gives up. -/
def ClaimOutcome.Leaves (env : Env) (tenantId taskId : String) (db db' : Db) : ClaimOutcome → Prop
  | .notFound => ∀ t, db.tasks.get taskId = some t → t.tenantId ≠ tenantId
  | .terminal => Idle env db taskId
  | .claimed => True
  | .stale | .deferred => Idle env db' taskId

/-- A claim strands no task, and when it gives the message up its task is idle. -/
theorem claimTask_advance {clarification : Fields → Bool} {outcome : ClaimOutcome}
    {tenantId taskId workerId leaseId : String}
    (h : claimTask env amb s clarification tenantId taskId workerId leaseId = .ok (s', outcome)) :
    Advance env none P s s' ∧ outcome.Leaves env tenantId taskId s.db s'.db := by
  unfold claimTask at h
  split at h
  next hnone =>
    obtain ⟨rfl, rfl⟩ := Prod.mk.inj (Except.ok.inj h)
    exact ⟨.refl s, fun t ht => by rw [hnone] at ht; cases ht⟩
  next task hrow =>
    have hget : s.db.tasks.get task.id = some task := Rows.get_self hrow
    have hid : task.id = taskId := Rows.key_of_get hrow
    dsimp only at h
    have hloaded := loaded_db s amb.now task.missionId tenantId
    set s₀ := ((getMissionForTenant s amb.now task.missionId tenantId).map Prod.fst).getD s
    have hopen : Advance env none P s s₀ := .of_eq (by rw [hloaded]) (by rw [hloaded])
    have hget₀ : s₀.db.tasks.get task.id = some task := by rw [hloaded]; exact hget
    split_ifs at h with htenant hterminal hstale
    · obtain ⟨rfl, rfl⟩ := Prod.mk.inj (Except.ok.inj h)
      refine ⟨.refl s, fun t ht => ?_⟩
      obtain rfl := Option.some.inj (hrow.symm.trans ht)
      exact htenant
    · obtain ⟨rfl, rfl⟩ := Prod.mk.inj (Except.ok.inj h)
      refine ⟨.refl s, Idle.of_status hrow fun hqueued => ?_⟩
      rw [hqueued] at hterminal
      cases hterminal
    · obtain ⟨s₁, hcancel, hrest⟩ := bind_eq_ok.mp h
      obtain ⟨rfl, rfl⟩ := Prod.mk.inj (Except.ok.inj hrest)
      obtain ⟨hadvance, hidle⟩ := cancelStaleTask_advance (P := P) hplain hget₀ hcancel
      exact ⟨hopen.trans hadvance, hid ▸ hidle⟩
    · obtain ⟨⟨s₁, task₁, lease⟩, htake, hrest⟩ := bind_eq_ok.mp h
      obtain ⟨hadvance, hclaimed, hkept⟩ := takeLease_advance (P := P) env hget₀ htake
      obtain ⟨htask₁, -, -, -⟩ := takeLease_rows hget₀ htake
      dsimp only at hrest
      split_ifs at hrest with hpending
      · obtain ⟨rfl, rfl⟩ := Prod.mk.inj (Except.ok.inj hrest)
        exact ⟨hopen.trans hadvance, trivial⟩
      · obtain ⟨s₂, hdefer, hrest⟩ := bind_eq_ok.mp hrest
        obtain ⟨rfl, rfl⟩ := Prod.mk.inj (Except.ok.inj hrest)
        obtain ⟨hdeferred, hidle⟩ := deferForDependencies_advance (P := P) env htask₁
          hclaimed rfl (by simpa using hpending) hdefer
        rw [hkept.id, hid] at hidle
        exact ⟨(hopen.trans hadvance).trans hdeferred, hidle⟩

end Claim

section Creation
variable {env : Env} {s s' : Session}

theorem insertTask_eq_ok {task : ExecutionTask} (h : insertTask s task = .ok s') :
    ∃ tasks, s.db.tasks.insert task = some tasks ∧
      s' = { s with db := { s.db with tasks } } := by
  unfold insertTask at h
  split at h
  · cases h
  next tasks hinsert => exact ⟨tasks, hinsert, (Except.ok.inj h).symm⟩

variable (env) in
/-- A planned task is new, and it keeps open whatever dependency it is filed under. -/
theorem insertTask_delivers {task : ExecutionTask} (hplanned : task.status = .planned)
    (h : insertTask s task = .ok s') :
    (∀ keys, Ledger task.tenantId s.db keys → Ledger task.tenantId s'.db keys) ∧
      ∀ id, Stranded env s'.db id → Stranded env s.db id := by
  obtain ⟨tasks, hinsert, rfl⟩ := insertTask_eq_ok h
  have hrow := Rows.get_insert hinsert
  have hnone : s.db.tasks.get task.id = none := Rows.get_of_insert hinsert
  have hlist : tasks.list = s.db.tasks.list ++ [task] := by
    unfold Rows.insert at hinsert
    split_ifs at hinsert
    obtain rfl := Option.some.inj hinsert
    rfl
  refine ⟨fun keys hl => hl.of_eq rfl (fun id t ht => ?_) fun id t ht hc => ?_, fun id hs => ?_⟩
  · have ht : tasks.get id = some t := ht
    rw [hrow] at ht
    split_ifs at ht
    · obtain rfl := Option.some.inj ht
      rfl
    · exact hl.tasks id t ht
  · refine ⟨t, (hrow id).trans ((if_neg ?_).trans ht), hc⟩
    rintro rfl
    rw [show s.db.tasks.get (Keyed.key task) = none from hnone] at ht
    cases ht
  · obtain ⟨t, ht, hqueued, hdisarmed, hopen⟩ := hs
    have ht : tasks.get id = some t := ht
    rw [hrow] at ht
    split_ifs at ht with hkey
    · obtain rfl := Option.some.inj ht
      rw [hplanned] at hqueued
      cases hqueued
    · refine ⟨t, ht, hqueued, hdisarmed, fun hw => hopen ?_⟩
      obtain ⟨hdeferred, keys, key, hkeys, hmem, hnode⟩ := hw
      refine ⟨hdeferred, keys, key, hkeys, hmem, ?_⟩
      unfold nodeOpen nodeTask Db.listForMission at *
      rw [hlist, List.filter_append, List.reverse_append, List.find?_append]
      by_cases hmission : task.missionId = t.missionId
      · by_cases hfiled : task.graphNodeKey = some (pyStr env key)
        · simp [hmission, hfiled, hplanned]
        · simpa [hmission, hfiled] using hnode
      · simpa [hmission] using hnode

end Creation
end Ajenda.Runtime
