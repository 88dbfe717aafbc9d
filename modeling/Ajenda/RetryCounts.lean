import Ajenda.MaintenancePass
import Ajenda.MissionCompletion

/-!
# Retry counts never fall

The count of a task is written by the maintainer's recoveries alone, and they raise it. Every
other transaction writes back the count it has read, so along any run the count of a task that
is not stored yet, zero, and the counts of the stored ones only grow.
-/
namespace Ajenda.Runtime
open JsonValue KeyedRows Relation
open RedisQueue (Config)

/-- The retry count of each task. -/
def Db.retries (db : Db) (taskId : String) : ℕ :=
  ((db.tasks.get taskId).map ExecutionTask.retryCount).getD 0

section Rows
variable {env : Env} {s s' : Session} {db db' : Db} {task task' : ExecutionTask}

theorem retries_of_get {taskId : String} (h : db.tasks.get taskId = some task) :
    db.retries taskId = task.retryCount := by
  simp [Db.retries, h]

theorem retries_congr (h : db'.tasks = db.tasks) : db'.retries = db.retries := by
  funext id
  simp [Db.retries, h]

theorem retries_le_of_kept (h : ∀ id t, db.tasks.get id = some t →
    ∃ t', db'.tasks.get id = some t' ∧ t.retryCount ≤ t'.retryCount) :
    db.retries ≤ db'.retries := by
  intro id
  cases hget : db.tasks.get id with
  | none => simp [Db.retries, hget]
  | some t =>
    obtain ⟨t', hget', hle⟩ := h id t hget
    rw [retries_of_get hget, retries_of_get hget']
    exact hle

theorem saveTask_retries (hget : s.db.tasks.get task.id = some task) (hid : task'.id = task.id)
    (hcount : task.retryCount ≤ task'.retryCount) : s.db.retries ≤ (s.saveTask task').db.retries := by
  refine retries_le_of_kept fun id t ht => ?_
  rw [get_saveTask hget hid]
  split_ifs with h
  · obtain rfl := Option.some.inj (hget.symm.trans (h ▸ ht))
    exact ⟨task', rfl, hcount⟩
  · exact ⟨t, ht, le_rfl⟩

theorem RollupMove.retries {t t' : ExecutionTask} (h : ReflTransGen (RollupMove env) t t') :
    t'.retryCount = t.retryCount := by
  induction h with
  | refl => rfl
  | tail _ hmove ih =>
    refine Eq.trans ?_ ih
    cases hmove <;> rfl

theorem Rolled.retries (h : Rolled env s s') : s.db.retries ≤ s'.db.retries := by
  refine retries_le_of_kept fun id t ht => ?_
  obtain ⟨t', ht', hmoves⟩ := h.kept id t ht
  exact ⟨t', ht', (RollupMove.retries hmoves).ge⟩

end Rows

section Worker
variable {env : Env} {amb : Ambient} {s s' : Session} {task : ExecutionTask}
  {tenantId leaseId workerId taskId reason : String}

theorem cancel_retries (s : Session) (task : ExecutionTask) :
    (cancel s task).db.retries = s.db.retries := by
  rw [retries_congr]
  rw [cancel_db]

theorem rollup_retries {fuel : ℕ} (h : maybeRollupMissionStatus env amb fuel s task = .ok s') :
    s.db.retries ≤ s'.db.retries :=
  (maybeRollupMissionStatus_rolled h).retries

theorem startExecution_retries (h : startExecution s tenantId leaseId workerId = .ok s') :
    s.db.retries ≤ s'.db.retries := by
  obtain ⟨lease, hlease, hrest⟩ := bind_eq_ok.1 h
  obtain ⟨task, htask, hrest⟩ := bind_eq_ok.1 hrest
  have hget := Rows.get_self (getTaskForLease_eq_ok htask).1
  split_ifs at hrest
  · obtain ⟨lease', -, hrest⟩ := bind_eq_ok.1 hrest
    obtain ⟨task', htask', hrest⟩ := bind_eq_ok.1 hrest
    obtain ⟨-, rfl⟩ := transitionTask_eq_ok.1 htask'
    obtain rfl := Except.ok.inj hrest
    exact saveTask_retries (s := s.saveLease lease') hget rfl le_rfl
  · obtain rfl := Except.ok.inj hrest
    exact le_rfl

theorem recordOutput_retries {task' : ExecutionTask} {lease : WorkerLease}
    {taskOutput : Option Fields} {outputReason : Option String}
    (h : recordOutput env s task lease taskOutput outputReason = .ok (s', task')) :
    s'.db.tasks = s.db.tasks ∧ task'.id = task.id ∧ task'.retryCount = task.retryCount := by
  cases taskOutput with
  | none =>
    obtain ⟨rfl, rfl⟩ := Prod.mk.inj (Except.ok.inj h)
    exact ⟨rfl, rfl, rfl⟩
  | some taskOutput =>
    obtain ⟨records, -, hrest⟩ := bind_eq_ok.1 h
    obtain ⟨rfl, rfl⟩ := Prod.mk.inj (Except.ok.inj hrest)
    refine ⟨rfl, ?_⟩
    split_ifs <;> exact ⟨rfl, rfl⟩

theorem complete_retries {taskOutput : Option Fields} {outputReason : Option String}
    {runtimeMetadata : Option Fields}
    (h : complete env amb s tenantId leaseId workerId taskOutput outputReason runtimeMetadata =
      .ok s') : s.db.retries ≤ s'.db.retries := by
  obtain ⟨lease, hlease, hrest⟩ := bind_eq_ok.1 h
  obtain ⟨task, htask, hrest⟩ := bind_eq_ok.1 hrest
  have hget := Rows.get_self (getTaskForLease_eq_ok htask).1
  dsimp only at hrest
  split_ifs at hrest with hrunning hcancel
  · exact absurd hrest (completeCancelRequested_ne_ok (not_not.1 hrunning))
  · obtain ⟨-, -, hrest⟩ := bind_eq_ok.1 hrest
    obtain ⟨task₁, htask₁, hrest⟩ := bind_eq_ok.1 hrest
    obtain ⟨-, rfl⟩ := transitionTask_eq_ok.1 htask₁
    obtain ⟨lease', -, hrest⟩ := bind_eq_ok.1 hrest
    obtain ⟨⟨s₂, task'⟩, houtput, hrest⟩ := bind_eq_ok.1 hrest
    obtain ⟨htasks, hid, hcount⟩ := recordOutput_retries houtput
    have hget₂ : s₂.db.tasks.get task.id = some task := htasks ▸ hget
    have hsaved : s₂.db.retries ≤ (s₂.saveTask task').db.retries :=
      saveTask_retries hget₂ hid hcount.ge
    calc s.db.retries = s₂.db.retries := (retries_congr htasks).symm
      _ ≤ (s₂.saveTask task').db.retries := hsaved
      _ ≤ (refreshDeliverableReadModel env amb (s₂.saveTask task') task').db.retries :=
        (refreshDeliverableReadModel_rolled _ _).retries
      _ ≤ s'.db.retries := rollup_retries hrest

theorem blockCompletionFailure_retries
    (h : blockCompletionFailure s tenantId leaseId workerId = .ok s') :
    s.db.retries ≤ s'.db.retries := by
  obtain ⟨lease, hlease, hrest⟩ := bind_eq_ok.1 h
  obtain ⟨task, htask, hrest⟩ := bind_eq_ok.1 hrest
  have hget := Rows.get_self (getTaskForLease_eq_ok htask).1
  split_ifs at hrest
  obtain ⟨task', htask', hrest⟩ := bind_eq_ok.1 hrest
  obtain ⟨-, rfl⟩ := transitionTask_eq_ok.1 htask'
  obtain ⟨lease', -, hrest⟩ := bind_eq_ok.1 hrest
  obtain rfl := Except.ok.inj hrest
  exact saveTask_retries hget rfl le_rfl

theorem fail_retries {evidenceId : String}
    (h : fail env amb s tenantId leaseId workerId reason evidenceId = .ok s') :
    s.db.retries ≤ s'.db.retries := by
  obtain ⟨lease, hlease, hrest⟩ := bind_eq_ok.1 h
  obtain ⟨task, htask, hrest⟩ := bind_eq_ok.1 hrest
  have hget := Rows.get_self (getTaskForLease_eq_ok htask).1
  split_ifs at hrest
  obtain ⟨task', htask', hrest⟩ := bind_eq_ok.1 hrest
  obtain ⟨-, rfl⟩ := transitionTask_eq_ok.1 htask'
  obtain ⟨lease', -, hrest⟩ := bind_eq_ok.1 hrest
  let failed := (task.withStatus .failed).withMetadata
    (Fields.set task.metadata "failure" (handlerFailure amb.now reason))
  let record := failureEvidenceRecord failed lease workerId reason evidenceId
  let saved := (s.saveTask failed).saveLease lease'
  let recorded : Session :=
    { saved with db := { saved.db with evidence := saved.db.evidence ++ [record] } }
  have hrollup : maybeRollupMissionStatus env amb env.recursionLimit
      (refreshDeliverableReadModel env amb recorded failed) failed = .ok s' := hrest
  calc s.db.retries ≤ (s.saveTask failed).db.retries := saveTask_retries hget rfl le_rfl
    _ = recorded.db.retries := rfl
    _ ≤ (refreshDeliverableReadModel env amb recorded failed).db.retries :=
      (refreshDeliverableReadModel_rolled _ _).retries
    _ ≤ s'.db.retries := rollup_retries hrollup

theorem heartbeat_tasks (h : heartbeat s tenantId leaseId workerId = .ok s') :
    s'.db.tasks = s.db.tasks := by
  obtain ⟨lease, -, hrest⟩ := bind_eq_ok.1 h
  split_ifs at hrest
  obtain ⟨lease', -, hrest⟩ := bind_eq_ok.1 hrest
  obtain rfl := Except.ok.inj hrest
  rfl

theorem release_retries (h : release s tenantId leaseId workerId = .ok s') :
    s.db.retries ≤ s'.db.retries := by
  obtain ⟨lease, hlease, hrest⟩ := bind_eq_ok.1 h
  obtain ⟨task, htask, hrest⟩ := bind_eq_ok.1 hrest
  have hget := Rows.get_self (getTaskForLease_eq_ok htask).1
  obtain ⟨-, -, hrest⟩ := bind_eq_ok.1 hrest
  obtain ⟨lease', -, hrest⟩ := bind_eq_ok.1 hrest
  obtain ⟨task', htask', hrest⟩ := bind_eq_ok.1 hrest
  obtain ⟨-, rfl⟩ := transitionTask_eq_ok.1 htask'
  obtain rfl := Except.ok.inj hrest
  exact saveTask_retries (s := s.saveLease lease') hget rfl le_rfl

theorem cancelTask_retries (h : cancelTask env amb s tenantId taskId reason = .ok s') :
    s.db.retries ≤ s'.db.retries := by
  unfold cancelTask at h
  split at h
  · cases h
  next task hget =>
    have hget := Rows.get_self hget
    split_ifs at h
    · obtain rfl := Except.ok.inj h
      exact le_rfl
    · refine le_trans ?_ (rollup_retries h)
      exact saveTask_retries hget rfl le_rfl
    · obtain ⟨task', htask', hrest⟩ := bind_eq_ok.1 h
      obtain ⟨-, rfl⟩ := transitionTask_eq_ok.1 htask'
      dsimp only at hrest
      have hsaved : s.db.retries ≤ (s.saveTask ((task.withStatus .cancelled).withMetadata
          (Fields.set task.metadata "cancel_reason" (.str reason)))).db.retries :=
        saveTask_retries hget rfl le_rfl
      exact (hsaved.trans (cancel_retries _ _).ge).trans (rollup_retries hrest)

theorem finishCancelMission_tasks {missionId : String}
    (h : finishCancelMission amb s tenantId missionId reason = .ok s') :
    s'.db.tasks = s.db.tasks := by
  unfold finishCancelMission at h
  split at h
  · cases h
  · split_ifs at h
    · obtain rfl := Except.ok.inj h
      rfl
    · obtain ⟨mission, -, hrest⟩ := bind_eq_ok.1 h
      obtain rfl := Except.ok.inj hrest
      rfl

end Worker

section Claim
variable {env : Env} {amb : Ambient} {s s' : Session} {task : ExecutionTask}
  {tenantId taskId workerId leaseId : String}

theorem cancelStaleTask_retries (hget : s.db.tasks.get task.id = some task)
    (h : cancelStaleTask env amb s task = .ok s') : s.db.retries ≤ s'.db.retries := by
  obtain ⟨task', htask', hrest⟩ := bind_eq_ok.1 h
  obtain ⟨-, rfl⟩ := transitionTask_eq_ok.1 htask'
  obtain ⟨s₁, hrollup, hrest⟩ := bind_eq_ok.1 hrest
  obtain rfl := Except.ok.inj hrest
  rw [cancel_retries]
  refine le_trans ?_ (rollup_retries hrollup)
  exact saveTask_retries hget rfl le_rfl

theorem takeLease_retries {task' : ExecutionTask} {lease : WorkerLease}
    (hget : s.db.tasks.get task.id = some task)
    (h : takeLease s task tenantId workerId leaseId = .ok (s', task', lease)) :
    s.db.retries ≤ s'.db.retries ∧ s'.db.tasks.get task'.id = some task' := by
  obtain ⟨-, -, hrest⟩ := bind_eq_ok.1 h
  obtain ⟨claimed, hclaimed, hrest⟩ := bind_eq_ok.1 hrest
  obtain ⟨-, rfl⟩ := transitionTask_eq_ok.1 hclaimed
  obtain ⟨s₁, hadd, hrest⟩ := bind_eq_ok.1 hrest
  obtain ⟨rfl, hpair⟩ := Prod.mk.inj (Except.ok.inj hrest)
  obtain ⟨rfl, -⟩ := Prod.mk.inj hpair
  have htasks := (addLease_untouched hadd).1
  have hget₁ : s₁.db.tasks.get task.id = some task := htasks ▸ hget
  refine ⟨?_, saveTask_row _ hget₁ rfl⟩
  rw [← retries_congr htasks]
  exact saveTask_retries hget₁ rfl le_rfl

theorem deferForDependencies_retries {lease : WorkerLease} {pending : List String}
    (hget : s.db.tasks.get task.id = some task)
    (h : deferForDependencies amb s task lease pending = .ok s') :
    s.db.retries ≤ s'.db.retries := by
  obtain ⟨lease', -, hrest⟩ := bind_eq_ok.1 h
  obtain ⟨task', htask', hrest⟩ := bind_eq_ok.1 hrest
  obtain ⟨-, rfl⟩ := transitionTask_eq_ok.1 htask'
  obtain rfl := Except.ok.inj hrest
  exact saveTask_retries (s := s.saveLease lease') hget rfl le_rfl

theorem claimTask_retries {clarification : Fields → Bool} {outcome : ClaimOutcome}
    (h : claimTask env amb s clarification tenantId taskId workerId leaseId = .ok (s', outcome)) :
    s.db.retries ≤ s'.db.retries := by
  unfold claimTask at h
  split at h
  · obtain ⟨rfl, -⟩ := Prod.mk.inj (Except.ok.inj h)
    exact le_rfl
  next task hget =>
    have hget := Rows.get_self hget
    dsimp only at h
    have htasks : (((getMissionForTenant s amb.now task.missionId tenantId).map
        Prod.fst).getD s).db.tasks = s.db.tasks := by rw [loaded_db]
    set s₀ := ((getMissionForTenant s amb.now task.missionId tenantId).map Prod.fst).getD s
    have hget₀ : s₀.db.tasks.get task.id = some task := htasks ▸ hget
    rw [← retries_congr htasks]
    split_ifs at h
    · obtain ⟨rfl, -⟩ := Prod.mk.inj (Except.ok.inj h)
      exact (retries_congr htasks).le
    · obtain ⟨rfl, -⟩ := Prod.mk.inj (Except.ok.inj h)
      exact (retries_congr htasks).le
    · obtain ⟨s₁, hcancel, hrest⟩ := bind_eq_ok.1 h
      obtain ⟨rfl, -⟩ := Prod.mk.inj (Except.ok.inj hrest)
      exact cancelStaleTask_retries hget₀ hcancel
    · obtain ⟨⟨s₁, task₁, lease⟩, htake, hrest⟩ := bind_eq_ok.1 h
      obtain ⟨htaken, hget₁⟩ := takeLease_retries hget₀ htake
      dsimp only at hrest
      split_ifs at hrest
      · obtain ⟨rfl, -⟩ := Prod.mk.inj (Except.ok.inj hrest)
        exact htaken
      · obtain ⟨s₂, hdefer, hrest⟩ := bind_eq_ok.1 hrest
        obtain ⟨rfl, -⟩ := Prod.mk.inj (Except.ok.inj hrest)
        exact htaken.trans (deferForDependencies_retries hget₁ hdefer)

end Claim

section Coordinator
variable {amb : Ambient} {s s' : Session} {task : ExecutionTask} {tenantId taskId : String}
  {gate : Gate}

theorem placeInReview_retries {task' : ExecutionTask} (hget : s.db.tasks.get task.id = some task)
    (h : placeInReview s task = .ok (s', task')) : s.db.retries ≤ s'.db.retries := by
  obtain ⟨task₁, htask₁, hrest⟩ := bind_eq_ok.1 h
  obtain ⟨-, rfl⟩ := transitionTask_eq_ok.1 htask₁
  obtain ⟨rfl, -⟩ := Prod.mk.inj (Except.ok.inj hrest)
  refine saveTask_retries hget ?_ ?_
  · split_ifs <;> rfl
  · split_ifs <;> exact le_rfl

theorem queueTask_retries {withinQuota ok : Bool}
    (h : queueTask amb s tenantId taskId gate withinQuota = .ok (s', ok)) :
    s.db.retries ≤ s'.db.retries := by
  obtain ⟨task, htask, hrest⟩ := bind_eq_ok.1 h
  have hget := (requireTask_eq_ok htask).1
  have hadmits : ∀ {s₁ s₂ : Session} {t held},
      recordTaskAdmission amb withinQuota s₁ t held = .ok s₂ → s₂.db.retries = s₁.db.retries :=
    fun hadmission => retries_congr (by rw [recordTaskAdmission_db hadmission])
  cases gate with
  | denied =>
    obtain ⟨rfl, -⟩ := Prod.mk.inj (Except.ok.inj hrest)
    exact le_rfl
  | review =>
    obtain ⟨⟨s₁, task₁⟩, hplace, hrest⟩ := bind_eq_ok.1 hrest
    obtain ⟨s₂, hadmission, hrest⟩ := bind_eq_ok.1 hrest
    obtain ⟨rfl, -⟩ := Prod.mk.inj (Except.ok.inj hrest)
    rw [hadmits hadmission]
    exact placeInReview_retries hget hplace
  | admitted =>
    obtain ⟨task₁, htask₁, hrest⟩ := bind_eq_ok.1 hrest
    obtain ⟨-, rfl⟩ := transitionTask_eq_ok.1 htask₁
    obtain ⟨s₁, hadmission, hrest⟩ := bind_eq_ok.1 hrest
    have hs : s' = s₁ := by
      split at hrest
      · split_ifs at hrest
        exact (Prod.mk.inj (Except.ok.inj hrest)).1.symm
      · exact (Prod.mk.inj (Except.ok.inj hrest)).1.symm
    rw [hs, hadmits hadmission]
    exact saveTask_retries hget rfl le_rfl

theorem approveReviewAndQueue_retries {withinQuota : Bool} {grant : Fields}
    {receipt : Fields → Except Error Fields}
    (h : approveReviewAndQueue amb s tenantId taskId gate withinQuota grant receipt = .ok s') :
    s.db.retries ≤ s'.db.retries := by
  obtain ⟨task, htask, hrest⟩ := bind_eq_ok.1 h
  have hget := (requireTask_eq_ok htask).1
  split_ifs at hrest
  obtain ⟨⟨s₁, ok⟩, hqueue, hrest⟩ := bind_eq_ok.1 hrest
  dsimp only at hrest
  split_ifs at hrest
  have hqueued : s.db.retries ≤ s₁.db.retries := by
    refine le_trans ?_ (queueTask_retries hqueue)
    exact saveTask_retries hget rfl le_rfl
  split at hrest
  · cases hrest
  · obtain ⟨metadata, -, hrest⟩ := bind_eq_ok.1 hrest
    obtain rfl := Except.ok.inj hrest
    exact hqueued

theorem markDeadLetter_retries (h : markDeadLetter s tenantId taskId = .ok s') :
    s.db.retries ≤ s'.db.retries := by
  obtain ⟨task, htask, hrest⟩ := bind_eq_ok.1 h
  obtain ⟨task₁, htask₁, hrest⟩ := bind_eq_ok.1 hrest
  obtain ⟨-, rfl⟩ := transitionTask_eq_ok.1 htask₁
  obtain rfl := Except.ok.inj hrest
  exact saveTask_retries (requireTask_eq_ok htask).1 rfl le_rfl

variable (amb) in
theorem preserveRetryableFailure_count (task : ExecutionTask) :
    (preserveRetryableFailure amb task).retryCount = task.retryCount := by
  unfold preserveRetryableFailure
  split <;> rfl

theorem retryTask_retries (h : retryTask amb s tenantId taskId gate = .ok s') :
    s.db.retries ≤ s'.db.retries := by
  obtain ⟨task, htask, hrest⟩ := bind_eq_ok.1 h
  have hget := (requireTask_eq_ok htask).1
  split_ifs at hrest
  cases gate with
  | denied =>
    obtain rfl := Except.ok.inj hrest
    exact le_rfl
  | review =>
    obtain ⟨⟨s₁, task₁⟩, hplace, hrest⟩ := bind_eq_ok.1 hrest
    obtain rfl := Except.ok.inj hrest
    exact placeInReview_retries hget hplace
  | admitted =>
    obtain ⟨s₁, hreopen, hrest⟩ := bind_eq_ok.1 hrest
    obtain ⟨task₁, htask₁, hrest⟩ := bind_eq_ok.1 hrest
    obtain ⟨-, rfl⟩ := transitionTask_eq_ok.1 htask₁
    have hid := (preserveRetryableFailure_keeps amb task).1
    have htasks : s₁.db.tasks = (s.saveTask (preserveRetryableFailure amb task)).db.tasks := by
      rw [(reopenFailedMission_eq_ok hreopen).1]
    have hsaved : s.db.retries ≤ s₁.db.retries := by
      rw [retries_congr htasks]
      exact saveTask_retries hget hid (preserveRetryableFailure_count amb task).ge
    have hget₁ : s₁.db.tasks.get (preserveRetryableFailure amb task).id =
        some (preserveRetryableFailure amb task) := by
      rw [htasks]
      exact (get_saveTask hget hid _).trans (if_pos hid)
    have hretried : s'.db.tasks = (s₁.saveTask ((preserveRetryableFailure amb task).withStatus
        .queued)).db.tasks := by rw [retry_db hrest]
    rw [retries_congr hretried]
    exact hsaved.trans (saveTask_retries hget₁ rfl le_rfl)

theorem insertTask_retries (h : insertTask s task = .ok s') : s.db.retries ≤ s'.db.retries := by
  unfold insertTask at h
  split at h
  · cases h
  next tasks hinsert =>
    obtain rfl := Except.ok.inj h
    refine retries_le_of_kept fun id t ht => ⟨t, ?_, le_rfl⟩
    rw [Rows.get_insert hinsert]
    split_ifs with hkey
    · rw [hkey, Rows.get_of_insert hinsert] at ht
      cases ht
    · exact ht

end Coordinator

section Maintainer
variable {s s' : Session} {tenantId taskId leaseId : String} {maxRetries : ℕ}

theorem recoveredTask_count (task : ExecutionTask) (maxRetries : ℕ) :
    task.retryCount ≤ (recoveredTask task maxRetries).retryCount := by
  unfold recoveredTask
  split
  · exact le_rfl
  · exact le_rfl
  · exact Nat.le_succ _

theorem recoverLease_retries (h : recoverLease s maxRetries leaseId = .ok s') :
    s.db.retries ≤ s'.db.retries := by
  cases hlease : s.db.leases.get leaseId with
  | none =>
    simp only [recoverLease, hlease, Except.ok.injEq] at h
    exact h ▸ le_rfl
  | some lease =>
    cases htask : s.db.tasks.get lease.taskId with
    | none =>
      simp only [recoverLease, hlease, htask, Except.ok.injEq] at h
      exact h ▸ le_rfl
    | some task =>
      cases hlive : lease.status.live with
      | false =>
        simp only [recoverLease, hlease, htask, hlive, Bool.not_false, if_true,
          Except.ok.injEq] at h
        exact h ▸ le_rfl
      | true =>
        rw [recoverLease_eq maxRetries hlease htask hlive] at h
        obtain rfl := Except.ok.inj h
        exact saveTask_retries (s := s.saveLease (lease.withStatus .expired))
          (Rows.get_self htask) (recoveredTask_id _ _) (recoveredTask_count task maxRetries)

theorem requeueOrphan_retries (h : requeueOrphan s tenantId taskId = .ok s') :
    s.db.retries ≤ s'.db.retries := by
  cases htask : s.db.tasks.get taskId with
  | none =>
    simp only [requeueOrphan, htask, Except.ok.injEq] at h
    exact h ▸ le_rfl
  | some task =>
    rcases requeueOrphan_cases tenantId htask with heq | ⟨retryCount, hle, heq⟩
    · obtain rfl := Except.ok.inj (heq.symm.trans h)
      exact le_rfl
    · obtain rfl := Except.ok.inj (heq.symm.trans h)
      exact saveTask_retries (Rows.get_self htask) rfl hle

end Maintainer

theorem insertMission_tasks {s s' : Session} {mission : Mission}
    (h : insertMission s mission = .ok s') : s'.db.tasks = s.db.tasks := by
  unfold insertMission at h
  split at h
  · cases h
  · obtain rfl := Except.ok.inj h
    rfl

/-- No transaction lowers a retry count. -/
theorem run_retries {env : Env} {c : Call} {db : Db} {s : Session} (h : c.run env db = .ok s) :
    db.retries ≤ s.db.retries := by
  obtain ⟨amb, transaction⟩ := c
  cases transaction with
  | createMission => exact (retries_congr (insertMission_tasks (s := db.open) h)).ge
  | createTask => exact insertTask_retries (s := db.open) h
  | claim =>
    obtain ⟨⟨s₁, outcome⟩, hclaim, hrest⟩ := bind_eq_ok.1 h
    obtain rfl := Except.ok.inj hrest
    exact claimTask_retries (s := db.open) hclaim
  | heartbeat => exact (retries_congr (heartbeat_tasks (s := db.open) h)).ge
  | start => exact startExecution_retries (s := db.open) h
  | complete => exact complete_retries (s := db.open) h
  | blockCompletionFailure => exact blockCompletionFailure_retries (s := db.open) h
  | fail => exact fail_retries (s := db.open) h
  | release => exact release_retries (s := db.open) h
  | cancelTask => exact cancelTask_retries (s := db.open) h
  | recoverLease => exact recoverLease_retries (s := db.open) h
  | requeueOrphan => exact requeueOrphan_retries (s := db.open) h
  | queueTask =>
    obtain ⟨⟨s₁, ok⟩, hqueue, hrest⟩ := bind_eq_ok.1 h
    obtain rfl := Except.ok.inj hrest
    exact queueTask_retries (s := db.open) hqueue
  | approveReviewAndQueue => exact approveReviewAndQueue_retries (s := db.open) h
  | markDeadLetter => exact markDeadLetter_retries (s := db.open) h
  | retryTask => exact retryTask_retries (s := db.open) h
  | finishCancelMission => exact (retries_congr (finishCancelMission_tasks (s := db.open) h)).ge
  | acknowledgePublication id =>
    obtain rfl := Except.ok.inj h
    exact (retries_congr (dispatchUpdate_rows db.open id).1.1).ge
  | dropDueDispatch id =>
    obtain rfl := Except.ok.inj h
    exact (retries_congr (dispatchUpdate_rows db.open id).2.1.1).ge
  | acknowledgeCleanup id =>
    obtain rfl := Except.ok.inj h
    exact (retries_congr (dispatchUpdate_rows db.open id).2.2.1).ge

end Ajenda.Runtime
