import Ajenda.WorkerMethods

/-!
# What the transactions do to leases

Every transaction but the claim keeps the tenant and the recorded lease of a task and brings no
lease to life.
-/
namespace Ajenda.Runtime
open JsonValue KeyedRows TransitionSystem Relation

/-- Tasks keep their tenant and their recorded lease, and no lease comes to life. -/
structure LeaseFrame (db db' : Db) : Prop where
  tasks : ∀ id task, db.tasks.get id = some task → ∃ task', db'.tasks.get id = some task' ∧
    task'.tenantId = task.tenantId ∧ task'.currentLease = task.currentLease
  leases : ∀ id lease', db'.leases.get id = some lease' → ∃ lease, db.leases.get id = some lease ∧
    lease'.taskId = lease.taskId ∧ lease'.tenantId = lease.tenantId ∧
      (lease'.status.live = true → lease.status.live = true)

section Frame

theorem LeaseFrame.of_eq {db db' : Db} (htasks : db'.tasks = db.tasks)
    (hleases : db'.leases = db.leases) : LeaseFrame db db' :=
  ⟨fun _ task h => ⟨task, htasks ▸ h, rfl, rfl⟩, fun _ lease h =>
    ⟨lease, hleases ▸ h, rfl, rfl, fun hl => hl⟩⟩

theorem LeaseFrame.refl (db : Db) : LeaseFrame db db := .of_eq rfl rfl

theorem LeaseFrame.trans {db₁ db₂ db₃ : Db} (h : LeaseFrame db₁ db₂) (g : LeaseFrame db₂ db₃) :
    LeaseFrame db₁ db₃ := by
  refine ⟨fun id task ht => ?_, fun id lease hl => ?_⟩
  · obtain ⟨task₂, ht₂, hn₂, hc₂⟩ := h.tasks id task ht
    obtain ⟨task₃, ht₃, hn₃, hc₃⟩ := g.tasks id task₂ ht₂
    exact ⟨task₃, ht₃, hn₃.trans hn₂, hc₃.trans hc₂⟩
  · obtain ⟨lease₂, hl₂, ht₂, hn₂, hv₂⟩ := g.leases id lease hl
    obtain ⟨lease₁, hl₁, ht₁, hn₁, hv₁⟩ := h.leases id lease₂ hl₂
    exact ⟨lease₁, hl₁, ht₂.trans ht₁, hn₂.trans hn₁, hv₁ ∘ hv₂⟩

theorem LeaseFrame.saveTask {s : Session} {task task' : ExecutionTask}
    (hget : s.db.tasks.get task.id = some task) (hid : task'.id = task.id)
    (htenant : task'.tenantId = task.tenantId)
    (hcurrent : task'.currentLease = task.currentLease) :
    LeaseFrame s.db (s.saveTask task').db := by
  refine ⟨fun id t ht => ?_, fun _ lease h => ⟨lease, h, rfl, rfl, fun hl => hl⟩⟩
  rw [get_saveTask hget hid]
  split_ifs with h
  · obtain rfl : task = t := Option.some.inj (hget.symm.trans (h ▸ ht))
    exact ⟨task', rfl, htenant, hcurrent⟩
  · exact ⟨t, ht, rfl, rfl⟩

theorem LeaseFrame.saveLease {s : Session} {lease lease' : WorkerLease}
    (hget : s.db.leases.get lease.id = some lease)
    (hkept : lease' = lease.withStatus lease'.status)
    (hlive : lease'.status.live = true → lease.status.live = true) :
    LeaseFrame s.db (s.saveLease lease').db := by
  refine ⟨fun _ t ht => ⟨t, ht, rfl, rfl⟩, fun id l hl => ?_⟩
  have hsame : lease'.id = lease.id ∧ lease'.taskId = lease.taskId ∧
      lease'.tenantId = lease.tenantId := by
    rw [hkept]
    exact ⟨rfl, rfl, rfl⟩
  rw [get_saveLease hget hsame.1] at hl
  split_ifs at hl with h
  · obtain rfl := Option.some.inj hl
    exact ⟨lease, h ▸ hget, hsame.2.1, hsame.2.2, hlive⟩
  · exact ⟨l, hl, rfl, rfl, fun h => h⟩

theorem RollupMove.keeps {env : Env} {t t' : ExecutionTask} (h : RollupMove env t t') :
    t'.id = t.id ∧ t'.tenantId = t.tenantId ∧ t'.currentLease = t.currentLease := by
  cases h <;> simp [recoverDependent, redispatchDependent, blockDependent,
    ExecutionTask.currentLease, Fields.get_set, Fields.get_pop]

theorem RollupMove.keeps_trans {env : Env} {t t' : ExecutionTask}
    (h : ReflTransGen (RollupMove env) t t') :
    t'.id = t.id ∧ t'.tenantId = t.tenantId ∧ t'.currentLease = t.currentLease := by
  induction h with
  | refl => exact ⟨rfl, rfl, rfl⟩
  | tail _ hmove ih =>
    obtain ⟨hid, htenant, hcurrent⟩ := hmove.keeps
    exact ⟨hid.trans ih.1, htenant.trans ih.2.1, hcurrent.trans ih.2.2⟩

theorem Rolled.leaseFrame {env : Env} {s s' : Session} (h : Rolled env s s') :
    LeaseFrame s.db s'.db := by
  refine ⟨fun id t ht => ?_, fun id lease hl => ⟨lease, h.leases ▸ hl, rfl, rfl, fun hl => hl⟩⟩
  obtain ⟨t', ht', hmoves⟩ := h.kept id t ht
  exact ⟨t', ht', (RollupMove.keeps_trans hmoves).2⟩

end Frame

section Methods
variable {env : Env} {amb : Ambient} {s s' : Session}

theorem Handled.leaseFrame {lease lease' : WorkerLease} {task task' : ExecutionTask}
    (h : Handled env s s' lease lease' task task') : LeaseFrame s.db s'.db := by
  obtain ⟨s₁, htasks, hleases, hrolled⟩ := h.rolled
  have htask : LeaseFrame s.db (s.saveTask task').db :=
    .saveTask h.taskRow h.taskId h.tenantId h.current
  have hlease : LeaseFrame (s.saveTask task').db ((s.saveTask task').saveLease lease').db :=
    .saveLease (s := s.saveTask task') h.leaseRow h.leaseKept h.live
  exact ((htask.trans hlease).trans (.of_eq htasks hleases)).trans hrolled.leaseFrame

theorem heartbeat_leaseFrame {tenantId leaseId workerId : String}
    (h : heartbeat s tenantId leaseId workerId = .ok s') : LeaseFrame s.db s'.db := by
  obtain ⟨lease, hlease, hrest⟩ := bind_eq_ok.mp h
  obtain ⟨hget, hid, -, -⟩ := getOwnedLease_eq_ok hlease
  split_ifs at hrest
  obtain ⟨lease', hlease', hrest⟩ := bind_eq_ok.mp hrest
  obtain rfl := Except.ok.inj hrest
  obtain ⟨hkept, -, hlive⟩ := activateLease_eq_ok hlease'
  exact .saveLease (hid ▸ hget) hkept (fun hl => hlive ▸ hl)

theorem cancel_leaseFrame (s : Session) (task : ExecutionTask) :
    LeaseFrame s.db (cancel s task).db := by
  refine .of_eq ?_ ?_ <;> rw [cancel_db]

theorem rollup_leaseFrame {task : ExecutionTask} {fuel : ℕ}
    (h : maybeRollupMissionStatus env amb fuel s task = .ok s') : LeaseFrame s.db s'.db :=
  (maybeRollupMissionStatus_rolled h).leaseFrame

theorem cancelTask_leaseFrame {tenantId taskId reason : String}
    (h : cancelTask env amb s tenantId taskId reason = .ok s') : LeaseFrame s.db s'.db := by
  unfold cancelTask at h
  split at h
  · cases h
  next task hget =>
    have hget : s.db.tasks.get task.id = some task := Rows.get_self hget
    split_ifs at h
    · obtain rfl := Except.ok.inj h
      exact .refl _
    · refine .trans (.saveTask hget ?_ ?_ ?_) (rollup_leaseFrame h)
      · rfl
      · rfl
      · simp [ExecutionTask.currentLease, Fields.get_set]
    · obtain ⟨task', htask', hrest⟩ := bind_eq_ok.mp h
      obtain ⟨-, rfl⟩ := transitionTask_eq_ok.mp htask'
      refine .trans (.trans (.saveTask hget ?_ ?_ ?_) (cancel_leaseFrame _ _))
        (rollup_leaseFrame hrest)
      · rfl
      · rfl
      · simp [ExecutionTask.currentLease, Fields.get_set]

theorem enterRecovery_eq_ok {task task' : ExecutionTask} (h : enterRecovery task = .ok task') :
    task' = task.withStatus task'.status := by
  unfold enterRecovery at h
  split_ifs at h
  · obtain ⟨-, rfl⟩ := transitionTask_eq_ok.mp h
    rfl
  · obtain rfl := Except.ok.inj h
    rfl

theorem recoverTask_eq_ok {task task' : ExecutionTask} {maxRetries : ℕ}
    (h : recoverTask task maxRetries = .ok task') :
    task' = { task with status := task'.status, retryCount := task'.retryCount } := by
  unfold recoverTask at h
  split at h
  · obtain rfl := Except.ok.inj h
    rfl
  all_goals
    obtain ⟨task₁, hrecovery, hrest⟩ := bind_eq_ok.mp h
    obtain ⟨-, rfl⟩ := transitionTask_eq_ok.mp hrest
    rw [enterRecovery_eq_ok hrecovery]
    rfl

theorem recoverLease_leaseFrame {maxRetries : ℕ} {leaseId : String}
    (h : recoverLease s maxRetries leaseId = .ok s') : LeaseFrame s.db s'.db := by
  unfold recoverLease at h
  split at h
  · obtain rfl := Except.ok.inj h
    exact .refl _
  next lease hlease =>
    split at h
    · obtain rfl := Except.ok.inj h
      exact .refl _
    next task htask =>
      split_ifs at h
      · obtain rfl := Except.ok.inj h
        exact .refl _
      · obtain ⟨lease', hlease', hrest⟩ := bind_eq_ok.mp h
        obtain ⟨task', htask', hrest⟩ := bind_eq_ok.mp hrest
        obtain ⟨-, rfl⟩ := transitionLease_eq_ok.mp hlease'
        obtain rfl := Except.ok.inj hrest
        have hkept := recoverTask_eq_ok htask'
        have hexpired : LeaseFrame s.db (s.saveLease (lease.withStatus .expired)).db :=
          .saveLease (Rows.get_self hlease) rfl (fun hl => by simp [WorkerLeaseState.live] at hl)
        have hget : (s.saveLease (lease.withStatus .expired)).db.tasks.get task.id = some task :=
          Rows.get_self htask
        refine hexpired.trans (.saveTask hget ?_ ?_ ?_)
        all_goals rw [hkept]
        rfl

theorem requeueOrphan_leaseFrame {tenantId taskId : String}
    (h : requeueOrphan s tenantId taskId = .ok s') : LeaseFrame s.db s'.db := by
  unfold requeueOrphan at h
  split at h
  · obtain rfl := Except.ok.inj h
    exact .refl _
  next task hget =>
    have hget : s.db.tasks.get task.id = some task := Rows.get_self hget
    split_ifs at h
    · obtain rfl := Except.ok.inj h
      exact .refl _
    · split at h
      · obtain ⟨task₁, htask₁, hrest⟩ := bind_eq_ok.mp h
        obtain ⟨task₂, htask₂, hrest⟩ := bind_eq_ok.mp hrest
        obtain ⟨-, rfl⟩ := transitionTask_eq_ok.mp htask₂
        obtain rfl := Except.ok.inj hrest
        rw [enterRecovery_eq_ok htask₁]
        exact .saveTask hget rfl rfl rfl
      · obtain ⟨task₁, htask₁, hrest⟩ := bind_eq_ok.mp h
        obtain ⟨-, rfl⟩ := transitionTask_eq_ok.mp htask₁
        obtain rfl := Except.ok.inj hrest
        exact .saveTask hget rfl rfl rfl
      · obtain ⟨task₁, htask₁, hrest⟩ := bind_eq_ok.mp h
        obtain ⟨-, rfl⟩ := transitionTask_eq_ok.mp htask₁
        obtain rfl := Except.ok.inj hrest
        exact .saveTask hget rfl rfl rfl
      · obtain rfl := Except.ok.inj h
        exact .refl _

end Methods

section Admission
variable {amb : Ambient} {s s' : Session}

theorem requireTask_eq_ok {tenantId taskId : String} {task : ExecutionTask}
    (h : requireTask s tenantId taskId = .ok task) :
    s.db.tasks.get task.id = some task ∧ task.id = taskId ∧ task.tenantId = tenantId := by
  unfold requireTask at h
  split at h
  · cases h
  next t hget =>
    split_ifs at h with htenant
    obtain rfl := Except.ok.inj h
    exact ⟨Rows.get_self hget, Rows.key_of_get hget, by simpa using htenant⟩

theorem placeInReview_leaseFrame {task task' : ExecutionTask}
    (hget : s.db.tasks.get task.id = some task) (h : placeInReview s task = .ok (s', task')) :
    LeaseFrame s.db s'.db := by
  obtain ⟨task₁, htask₁, hrest⟩ := bind_eq_ok.mp h
  obtain ⟨-, rfl⟩ := transitionTask_eq_ok.mp htask₁
  obtain ⟨rfl, -⟩ := Prod.mk.inj (Except.ok.inj hrest)
  refine .saveTask hget ?_ ?_ ?_
  all_goals split_ifs <;> simp [ExecutionTask.currentLease, Fields.get_set]

theorem recordTaskAdmission_leaseFrame {withinQuota held : Bool} {task : ExecutionTask}
    (h : recordTaskAdmission amb withinQuota s task held = .ok s') : LeaseFrame s.db s'.db := by
  obtain ⟨⟨s₁, created⟩, hadmission, hrest⟩ := bind_eq_ok.mp h
  dsimp only at hrest
  split_ifs at hrest
  obtain rfl := Except.ok.inj hrest
  refine .of_eq ?_ ?_ <;> rw [admit_db hadmission]

theorem queueTask_leaseFrame {tenantId taskId : String} {gate : Gate} {withinQuota ok : Bool}
    (h : queueTask amb s tenantId taskId gate withinQuota = .ok (s', ok)) :
    LeaseFrame s.db s'.db := by
  obtain ⟨task, htask, hrest⟩ := bind_eq_ok.mp h
  have hget := (requireTask_eq_ok htask).1
  cases gate with
  | denied =>
    obtain ⟨rfl, -⟩ := Prod.mk.inj (Except.ok.inj hrest)
    exact .refl _
  | review =>
    obtain ⟨⟨s₁, task₁⟩, hplace, hrest⟩ := bind_eq_ok.mp hrest
    obtain ⟨s₂, hadmission, hrest⟩ := bind_eq_ok.mp hrest
    obtain ⟨rfl, -⟩ := Prod.mk.inj (Except.ok.inj hrest)
    exact (placeInReview_leaseFrame hget hplace).trans (recordTaskAdmission_leaseFrame hadmission)
  | admitted =>
    obtain ⟨task₁, htask₁, hrest⟩ := bind_eq_ok.mp hrest
    obtain ⟨-, rfl⟩ := transitionTask_eq_ok.mp htask₁
    obtain ⟨s₁, hadmission, hrest⟩ := bind_eq_ok.mp hrest
    have hs : s' = s₁ := by
      split at hrest
      · split_ifs at hrest
        exact (Prod.mk.inj (Except.ok.inj hrest)).1.symm
      · exact (Prod.mk.inj (Except.ok.inj hrest)).1.symm
    subst hs
    refine .trans ?_ (recordTaskAdmission_leaseFrame hadmission)
    exact .saveTask hget rfl rfl rfl

theorem approveReviewAndQueue_leaseFrame {tenantId taskId : String} {gate : Gate}
    {withinQuota : Bool} {grant : Fields} {receipt : Fields → Except Error Fields}
    (h : approveReviewAndQueue amb s tenantId taskId gate withinQuota grant receipt = .ok s') :
    LeaseFrame s.db s'.db := by
  obtain ⟨task, htask, hrest⟩ := bind_eq_ok.mp h
  have hget := (requireTask_eq_ok htask).1
  split_ifs at hrest
  obtain ⟨⟨s₁, ok⟩, hqueue, hrest⟩ := bind_eq_ok.mp hrest
  dsimp only at hrest
  split_ifs at hrest
  have hfirst : LeaseFrame s.db s₁.db := by
    refine .trans (.saveTask hget ?_ ?_ ?_) (queueTask_leaseFrame hqueue)
    · rfl
    · rfl
    · refine Fields.get_update_of_forall_ne fun f hf hkey => ?_
      have hmem := List.of_mem_filter hf
      simp [hkey, approvalKeys] at hmem
  split at hrest
  · cases hrest
  · obtain ⟨metadata, -, hrest⟩ := bind_eq_ok.mp hrest
    obtain rfl := Except.ok.inj hrest
    exact hfirst.trans (.of_eq rfl rfl)

theorem markDeadLetter_leaseFrame {tenantId taskId : String}
    (h : markDeadLetter s tenantId taskId = .ok s') : LeaseFrame s.db s'.db := by
  obtain ⟨task, htask, hrest⟩ := bind_eq_ok.mp h
  obtain ⟨task₁, htask₁, hrest⟩ := bind_eq_ok.mp hrest
  obtain ⟨-, rfl⟩ := transitionTask_eq_ok.mp htask₁
  obtain rfl := Except.ok.inj hrest
  exact .saveTask (requireTask_eq_ok htask).1 rfl rfl rfl

variable (amb) in
theorem preserveRetryableFailure_keeps (task : ExecutionTask) :
    (preserveRetryableFailure amb task).id = task.id ∧
      (preserveRetryableFailure amb task).tenantId = task.tenantId ∧
      (preserveRetryableFailure amb task).currentLease = task.currentLease := by
  unfold preserveRetryableFailure
  split <;> simp [ExecutionTask.currentLease, Fields.get_set, Fields.get_pop]

theorem reopenFailedMission_eq_ok {tenantId : String} {task : ExecutionTask}
    (h : reopenFailedMission amb s tenantId task = .ok s') :
    s'.db = { s.db with missions := s'.db.missions } ∧ s'.intents = s.intents := by
  unfold reopenFailedMission at h
  split at h
  · cases h
  · split_ifs at h
    · obtain rfl := Except.ok.inj h
      exact ⟨rfl, rfl⟩
    · obtain ⟨mission, -, hrest⟩ := bind_eq_ok.mp h
      obtain rfl := Except.ok.inj hrest
      exact ⟨rfl, rfl⟩

theorem retryTask_leaseFrame {tenantId taskId : String} {gate : Gate}
    (h : retryTask amb s tenantId taskId gate = .ok s') : LeaseFrame s.db s'.db := by
  obtain ⟨task, htask, hrest⟩ := bind_eq_ok.mp h
  have hget := (requireTask_eq_ok htask).1
  split_ifs at hrest
  cases gate with
  | denied =>
    obtain rfl := Except.ok.inj hrest
    exact .refl _
  | review =>
    obtain ⟨⟨s₁, task₁⟩, hplace, hrest⟩ := bind_eq_ok.mp hrest
    obtain rfl := Except.ok.inj hrest
    exact placeInReview_leaseFrame hget hplace
  | admitted =>
    obtain ⟨s₁, hreopen, hrest⟩ := bind_eq_ok.mp hrest
    obtain ⟨task₁, htask₁, hrest⟩ := bind_eq_ok.mp hrest
    obtain ⟨-, rfl⟩ := transitionTask_eq_ok.mp htask₁
    obtain ⟨hid, htenant, hcurrent⟩ := preserveRetryableFailure_keeps amb task
    obtain ⟨hreopened, -⟩ := reopenFailedMission_eq_ok hreopen
    have hsaved : LeaseFrame s.db s₁.db := by
      refine .trans (.saveTask hget hid htenant hcurrent) (.of_eq ?_ ?_) <;> rw [hreopened]
    have hget₁ : s₁.db.tasks.get (preserveRetryableFailure amb task).id =
        some (preserveRetryableFailure amb task) := by
      rw [hreopened]
      exact (get_saveTask hget hid _).trans (if_pos hid)
    have hqueued : LeaseFrame s₁.db (s₁.saveTask ((preserveRetryableFailure amb task).withStatus
        .queued)).db := .saveTask hget₁ rfl rfl rfl
    refine (hsaved.trans hqueued).trans (.of_eq ?_ ?_) <;> rw [retry_db hrest]

theorem finishCancelMission_leaseFrame {tenantId missionId reason : String}
    (h : finishCancelMission amb s tenantId missionId reason = .ok s') :
    LeaseFrame s.db s'.db := by
  unfold finishCancelMission at h
  split at h
  · cases h
  · split_ifs at h
    · obtain rfl := Except.ok.inj h
      exact .refl _
    · obtain ⟨mission, -, hrest⟩ := bind_eq_ok.mp h
      obtain rfl := Except.ok.inj hrest
      exact .of_eq rfl rfl

theorem dispatchUpdate_leaseFrame (s : Session) (id : String) :
    LeaseFrame s.db (acknowledgePublication s id).db ∧ LeaseFrame s.db (dropDueDispatch s id).db ∧
      LeaseFrame s.db (acknowledgeCleanup s id).db := by
  unfold acknowledgePublication dropDueDispatch acknowledgeCleanup
  cases s.db.dispatches.get id with
  | none => exact ⟨.refl _, .refl _, .refl _⟩
  | some d =>
    dsimp only
    refine ⟨?_, ?_, ?_⟩ <;> split_ifs <;> exact .of_eq rfl rfl

end Admission

section Creation
variable {s s' : Session}

theorem insertMission_leaseFrame {mission : Mission} (h : insertMission s mission = .ok s') :
    LeaseFrame s.db s'.db := by
  unfold insertMission at h
  split at h
  · cases h
  · obtain rfl := Except.ok.inj h
    exact .of_eq rfl rfl

theorem insertTask_leaseFrame {task : ExecutionTask} (h : insertTask s task = .ok s') :
    LeaseFrame s.db s'.db := by
  unfold insertTask at h
  split at h
  · cases h
  next tasks hinsert =>
    obtain rfl := Except.ok.inj h
    refine ⟨fun id t ht => ⟨t, ?_, rfl, rfl⟩, fun _ lease h => ⟨lease, h, rfl, rfl, fun hl => hl⟩⟩
    rw [Rows.get_insert hinsert]
    split_ifs with hkey
    · rw [hkey, Rows.get_of_insert hinsert] at ht
      cases ht
    · exact ht

end Creation

end Ajenda.Runtime
