import Ajenda.RedisQueueClaims
import Ajenda.Deliverability

/-!
# A maintenance pass

`recover_expired_leases` publishes what is due, recovers the leases that have outlived their
heartbeat and then reconciles every payload in processing with the rows. The payload of a
finished task is completed by the owner-checked call of the queue, which refuses without a
lease key, so the pass removes no payload whose key has expired.
-/
namespace Ajenda.Runtime
open JsonValue KeyedRows FiniteTable TransitionSystem
open RedisQueue (Config Store)
open LuaCjson (Payload)

/-- One pass with what the database answers: the dispatches and leases it selects, and the
latest holder of a task's leases. -/
structure Maintenance where
  amb : Ambient
  maxRetries : ℕ
  due : List String
  cancelled : List String
  expired : List String
  holder : String → String
  reason : String → String

section Pass
variable (cfg : Config) (p : Maintenance)

/-- The queue accepts the move of a recovery. -/
def recoveryAccepted (queue : Store) (lease : WorkerLease) (task : ExecutionTask) : Bool :=
  match recoveryMove task p.maxRetries with
  | .none => true
  | .deadLetter => (RedisQueue.deadLetterScript queue cfg.tenantId task.id lease.holderIdentity
      (p.reason task.id) p.amb.now).1.isOk
  | .requeue => (RedisQueue.recoverOwnerScript queue task.id lease.holderIdentity).1.isOk

/-- A turn of the loop over the expired leases; a refusal of the queue raises. -/
def recoverTurn (w : World) (leaseId : String) : Option World :=
  match w.db.leases.get leaseId with
  | none => some w
  | some lease =>
    match w.db.tasks.get lease.taskId with
    | none => some w
    | some task =>
      if !lease.status.live then some w
      else if recoveryAccepted cfg p w.queue lease task then
        some (recoverExpired cfg p.amb w p.maxRetries leaseId (p.reason task.id))
      else none

/-- A turn of the loop over the payloads in processing; a corrupt or foreign one is skipped. -/
def reconcileTurn (w : World) (raw : Payload) : World :=
  match RedisQueue.decodeMessage raw with
  | none => w
  | some message =>
    if message.tenantId ≠ cfg.tenantId then w
    else reconcileProcessing cfg p.amb w message.taskId (p.holder message.taskId)
      (p.reason message.taskId)

/-- `recover_expired_leases`: `none` when it raises. -/
def maintenancePass (w : World) : Option World := do
  let w := p.cancelled.foldl reconcileCancelled (p.due.foldl (publishDue cfg) w)
  let w ← p.expired.foldlM (recoverTurn cfg p) w
  pure (w.queue.processingPayloads.values.foldl (reconcileTurn cfg p) w)

end Pass

/-- The states whose payload a pass cleans up. -/
def ExecutionTaskState.cleanedUp : ExecutionTaskState → Bool
  | .completed | .blocked | .cancelled => true
  | _ => false

/-- A finished task without a live lease but those listed and without a lease key, whose payload
is still in processing. -/
structure LeftBehind (cfg : Config) (w : World) (listed : List String) (taskId : String) :
    Prop where
  finished : ∃ task, w.db.tasks.get taskId = some task ∧ task.tenantId = cfg.tenantId ∧
    task.status.cleanedUp = true
  unleased : ∀ id lease, w.db.leases.get id = some lease → lease.tenantId = cfg.tenantId →
    lease.taskId = taskId → lease.status.live = true → id ∈ listed
  expired : w.queue.leases.get taskId = none
  payload : w.queue.processingPayloads.has taskId = true

instance (cfg : Config) (w : World) (listed : List String) (taskId : String) :
    Decidable (LeftBehind cfg w listed taskId) :=
  decidable_of_iff ((∃ task ∈ w.db.tasks.list, task.id = taskId ∧ task.tenantId = cfg.tenantId ∧
      task.status.cleanedUp = true) ∧
    (∀ lease ∈ w.db.leases.list, lease.tenantId = cfg.tenantId → lease.taskId = taskId →
      lease.status.live = true → lease.id ∈ listed) ∧
    w.queue.leases.get taskId = none ∧ w.queue.processingPayloads.has taskId = true) <| by
    constructor
    · rintro ⟨⟨task, hmem, rfl, hfinished⟩, hleases, hexpired, hpayload⟩
      refine ⟨⟨task, Rows.get_of_mem hmem, hfinished⟩, fun id lease hget => ?_, hexpired, hpayload⟩
      obtain rfl : lease.id = id := Rows.key_of_get hget
      exact hleases lease (Rows.mem_of_get hget)
    · rintro ⟨⟨task, hget, hfinished⟩, hleases, hexpired, hpayload⟩
      exact ⟨⟨task, Rows.mem_of_get hget, Rows.key_of_get hget, hfinished⟩,
        fun lease hmem => hleases lease.id lease (Rows.get_of_mem hmem), hexpired, hpayload⟩

/-! ## Queue calls -/

section Queue
variable {queue : Store} {t u : String}

/-- The lease keys and the payloads in processing are the same. -/
def SameProcessing (queue queue' : Store) : Prop :=
  queue'.leases = queue.leases ∧ queue'.processingPayloads = queue.processingPayloads

theorem idempotentEnqueueScript_same (queue : Store) (key t : String)
    (payload : Payload) :
    SameProcessing queue (RedisQueue.idempotentEnqueueScript queue key t payload).2 := by
  unfold RedisQueue.idempotentEnqueueScript
  split_ifs <;> exact ⟨rfl, rfl⟩

theorem cancelPendingTaskScript_same (queue : Store) (t : String) :
    SameProcessing queue (RedisQueue.cancelPendingTaskScript queue t).2 := by
  unfold RedisQueue.cancelPendingTaskScript
  split_ifs <;> exact ⟨rfl, rfl⟩

theorem retryDeadLetterScript_same (queue : Store) (tenantId t : String) :
    SameProcessing queue (RedisQueue.retryDeadLetterScript queue tenantId t).2 := by
  unfold RedisQueue.retryDeadLetterScript
  repeat' split
  all_goals exact ⟨rfl, rfl⟩

/-- Another task's lease key and payload are the same. -/
def SameOf (u : String) (queue queue' : Store) : Prop :=
  queue'.leases.get u = queue.leases.get u ∧
    queue'.processingPayloads.has u = queue.processingPayloads.has u

theorem completeOwnerScript_other (hne : u ≠ t) (worker : String) :
    SameOf u queue (RedisQueue.completeOwnerScript queue t worker).2 := by
  unfold RedisQueue.completeOwnerScript
  split
  · exact ⟨rfl, rfl⟩
  · split_ifs
    · exact ⟨rfl, rfl⟩
    · simp [SameOf, Store.dropProcessing, Store.dropLease, Table.get_del_ne _ hne, Table.has]
    · exact ⟨rfl, rfl⟩

theorem recoverOwnerScript_other (hne : u ≠ t) (worker : String) :
    SameOf u queue (RedisQueue.recoverOwnerScript queue t worker).2 := by
  unfold RedisQueue.recoverOwnerScript
  split_ifs
  · exact ⟨rfl, rfl⟩
  · split
    · exact ⟨rfl, rfl⟩
    · exact ⟨rfl, rfl⟩
    all_goals simp [SameOf, Store.dropProcessing, Store.dropLease, Store.pushPending,
      Table.get_del_ne _ hne, Table.has]

theorem deadLetterScript_other (hne : u ≠ t) (tenantId owner reason movedAt : String) :
    SameOf u queue (RedisQueue.deadLetterScript queue tenantId t owner reason movedAt).2 := by
  unfold RedisQueue.deadLetterScript
  split
  · exact ⟨rfl, rfl⟩
  · split
    · exact ⟨rfl, rfl⟩
    · dsimp only
      split
      all_goals simp [SameOf, Store.dropProcessing, Store.dropPending, Store.dropLease,
        Store.pushDead, Table.get_del_ne _ hne, Table.has]

/-- The cleanup call of a task without a lease key changes nothing. -/
theorem completeOwnerScript_expired (h : queue.leases.get t = none) (worker : String) :
    (RedisQueue.completeOwnerScript queue t worker).2 = queue := by
  simp [RedisQueue.completeOwnerScript, h]

/-- The cleanup call leaves the queue as it is or takes the payload away. -/
theorem completeOwnerScript_cleans (queue : Store) (t worker : String) :
    (RedisQueue.completeOwnerScript queue t worker).2 = queue ∨
      (RedisQueue.completeOwnerScript queue t worker).2.processingPayloads.has t = false := by
  unfold RedisQueue.completeOwnerScript
  split
  · exact .inl rfl
  · split_ifs
    · exact .inl rfl
    · exact .inr (by simp [Store.dropProcessing, Store.dropLease, Table.has])
    · exact .inl rfl

theorem SameProcessing.refl (queue : Store) : SameProcessing queue queue := ⟨rfl, rfl⟩

theorem SameProcessing.trans {queue₁ queue₂ queue₃ : Store} (h : SameProcessing queue₁ queue₂)
    (g : SameProcessing queue₂ queue₃) : SameProcessing queue₁ queue₃ :=
  ⟨g.1.trans h.1, g.2.trans h.2⟩

theorem publish_same (cfg : Config) (queue : Store) (dispatch : RuntimeQueueDispatch) :
    SameProcessing queue (publish cfg queue dispatch).2 := by
  have henqueue : ∀ (queue : Store) generation,
      SameProcessing queue (enqueueGeneration queue dispatch generation).2 := by
    intro queue generation
    have h := idempotentEnqueueScript_same queue (idempotencyKey dispatch.id generation)
      dispatch.taskId (RedisQueue.encodeMessage (dispatchMessage dispatch))
    unfold enqueueGeneration
    split
    all_goals
      next hscript =>
        rw [hscript] at h
        exact h
  unfold publish
  split
  · exact .refl queue
  · split_ifs
    · exact henqueue queue _
    · have h := retryDeadLetterScript_same queue cfg.tenantId dispatch.taskId
      split
      all_goals
        next hscript =>
          rw [hscript] at h
          try split_ifs
          all_goals first | exact h | exact h.trans (henqueue _ _)

end Queue

/-! ## The publishing turns -/

section Publishing
variable {cfg : Config} {w w' : World}

/-- A step that keeps the tasks, the leases, the lease keys and the payloads in processing. -/
structure Quiet (w w' : World) : Prop where
  tasks : w'.db.tasks = w.db.tasks
  leases : w'.db.leases = w.db.leases
  queue : SameProcessing w.queue w'.queue

theorem Quiet.refl (w : World) : Quiet w w := ⟨rfl, rfl, .refl _⟩

theorem Quiet.trans {w₁ w₂ w₃ : World} (h : Quiet w₁ w₂) (g : Quiet w₂ w₃) : Quiet w₁ w₃ :=
  ⟨g.tasks.trans h.tasks, g.leases.trans h.leases, h.queue.trans g.queue⟩

theorem Quiet.foldl {step : World → String → World} (h : ∀ w id, Quiet w (step w id))
    (ids : List String) (w : World) : Quiet w (ids.foldl step w) := by
  induction ids generalizing w with
  | nil => exact .refl w
  | cons id ids ih => exact (h w id).trans (ih (step w id))

/-- The commits of the dispatcher write dispatches only. -/
theorem dispatchUpdate_rows (s : Session) (id : String) :
    ((acknowledgePublication s id).db.tasks = s.db.tasks ∧
        (acknowledgePublication s id).db.leases = s.db.leases) ∧
      ((dropDueDispatch s id).db.tasks = s.db.tasks ∧
        (dropDueDispatch s id).db.leases = s.db.leases) ∧
      (acknowledgeCleanup s id).db.tasks = s.db.tasks ∧
        (acknowledgeCleanup s id).db.leases = s.db.leases := by
  unfold acknowledgePublication dropDueDispatch acknowledgeCleanup
  cases s.db.dispatches.get id with
  | none => exact ⟨⟨rfl, rfl⟩, ⟨rfl, rfl⟩, rfl, rfl⟩
  | some dispatch =>
    dsimp only
    refine ⟨?_, ?_, ?_⟩ <;> split_ifs <;> exact ⟨rfl, rfl⟩

theorem publishDispatch_quiet (w : World) (id : String) : Quiet w (publishDispatch cfg w id) := by
  unfold publishDispatch
  split
  · exact .refl w
  next dispatch hdispatch =>
    split_ifs
    · exact .refl w
    · have hqueue := publish_same cfg w.queue dispatch
      split
      all_goals
        next queue hpublish =>
          rw [hpublish] at hqueue
          first
            | exact ⟨rfl, rfl, hqueue⟩
            | exact ⟨(dispatchUpdate_rows w.db.open id).1.1, (dispatchUpdate_rows w.db.open id).1.2,
                hqueue⟩

theorem publishDue_quiet (w : World) (id : String) : Quiet w (publishDue cfg w id) := by
  unfold publishDue
  split
  · exact .refl w
  · have hdrop := (dispatchUpdate_rows w.db.open id).2.1
    dsimp only
    split_ifs
    · exact publishDispatch_quiet w id
    · exact ⟨hdrop.1, hdrop.2, .refl _⟩

theorem reconcileCancelled_quiet (w : World) (id : String) : Quiet w (reconcileCancelled w id) := by
  unfold reconcileCancelled
  split
  · exact .refl w
  next dispatch hdispatch =>
    split_ifs
    · have hqueue := cancelPendingTaskScript_same w.queue dispatch.taskId
      have hcleanup := (dispatchUpdate_rows w.db.open id).2.2
      split
      all_goals
        next queue hcancel =>
          rw [hcancel] at hqueue
          first
            | exact ⟨rfl, rfl, hqueue⟩
            | exact ⟨hcleanup.1, hcleanup.2, hqueue⟩
    · exact .refl w

end Publishing

/-! ## Recoveries -/

section Recovery
variable {cfg : Config} {p : Maintenance} {w w' : World} {s : Session} {task : ExecutionTask}
  {maxRetries : ℕ} {leaseId : String} {lease : WorkerLease} {t : String} {rest : List String}

/-- The row a recovery leaves. -/
def recoveredTask (task : ExecutionTask) (maxRetries : ℕ) : ExecutionTask :=
  match recoveryMove task maxRetries with
  | .none => task
  | .deadLetter => task.withStatus .deadLettered
  | .requeue => { task with status := .queued, retryCount := task.retryCount + 1 }

theorem recoverTask_eq (task : ExecutionTask) (maxRetries : ℕ) :
    recoverTask task maxRetries = .ok (recoveredTask task maxRetries) := by
  unfold recoverTask recoveredTask
  cases hmove : recoveryMove task maxRetries with
  | none => rfl
  | deadLetter =>
    rcases recoveryMove_working (by rw [hmove]; simp) with hs | hs
    all_goals
      simp [enterRecovery, transitionTask, taskAllowed, hs, bind, Except.bind,
        ExecutionTask.withStatus]
  | requeue =>
    rcases recoveryMove_working (by rw [hmove]; simp) with hs | hs
    all_goals
      simp [enterRecovery, transitionTask, taskAllowed, hs, bind, Except.bind,
        ExecutionTask.withStatus]

theorem recoverLease_eq (maxRetries : ℕ) (hlease : s.db.leases.get leaseId = some lease)
    (htask : s.db.tasks.get lease.taskId = some task) (hlive : lease.status.live = true) :
    recoverLease s maxRetries leaseId =
      .ok ((s.saveLease (lease.withStatus .expired)).saveTask (recoveredTask task maxRetries)) := by
  have hexpires : transitionLease lease .expired = .ok (lease.withStatus .expired) := by
    refine transitionLease_eq_ok.mpr ⟨?_, rfl⟩
    cases hs : lease.status with
    | claimed | active => simp [leaseAllowed]
    | expired | released => simp [hs, WorkerLeaseState.live] at hlive
  unfold recoverLease
  rw [hlease]
  dsimp only
  rw [htask]
  dsimp only
  rw [if_neg (by simp [hlive]), hexpires, recoverTask_eq]
  rfl

theorem recoveredTask_id (task : ExecutionTask) (maxRetries : ℕ) :
    (recoveredTask task maxRetries).id = task.id := by
  unfold recoveredTask
  split <;> rfl

/-- A task that a recovery moves is not one a pass cleans up, before or after. -/
theorem recoveredTask_status (hmove : recoveryMove task maxRetries ≠ .none) :
    task.status.cleanedUp = false ∧ (recoveredTask task maxRetries).status.cleanedUp = false := by
  constructor
  · rcases recoveryMove_working hmove with hs | hs <;> rw [hs] <;> rfl
  · unfold recoveredTask
    split
    · contradiction
    all_goals rfl

/-- Nothing about a task has changed but that a listed lease of it may have expired. -/
theorem leftBehind_congr {listed listed' : List String}
    (htask : w'.db.tasks.get t = w.db.tasks.get t) (hqueue : SameOf t w.queue w'.queue)
    (hleases : (∀ id lease, w'.db.leases.get id = some lease → lease.tenantId = cfg.tenantId →
        lease.taskId = t → lease.status.live = true → id ∈ listed') ↔
      ∀ id lease, w.db.leases.get id = some lease → lease.tenantId = cfg.tenantId →
        lease.taskId = t → lease.status.live = true → id ∈ listed) :
    LeftBehind cfg w' listed' t ↔ LeftBehind cfg w listed t := by
  constructor
  · rintro ⟨hfinished, hunleased, hexpired, hpayload⟩
    rw [htask] at hfinished
    rw [hqueue.1] at hexpired
    rw [hqueue.2] at hpayload
    exact ⟨hfinished, hleases.mp hunleased, hexpired, hpayload⟩
  · rintro ⟨hfinished, hunleased, hexpired, hpayload⟩
    rw [← htask] at hfinished
    rw [← hqueue.1] at hexpired
    rw [← hqueue.2] at hpayload
    exact ⟨hfinished, hleases.mpr hunleased, hexpired, hpayload⟩

theorem LeftBehind.status (h : LeftBehind cfg w rest t) (htask : w.db.tasks.get t = some task) :
    task.status.cleanedUp = true := by
  obtain ⟨task', htask', -, hstatus⟩ := h.finished
  obtain rfl := Option.some.inj (htask.symm.trans htask')
  exact hstatus

/-- A lease that the listed one does not need to account for can be taken off the list. -/
theorem leftBehind_cons
    (h : ∀ lease, w.db.leases.get leaseId = some lease → lease.taskId = t →
      lease.status.live = false) :
    LeftBehind cfg w rest t ↔ LeftBehind cfg w (leaseId :: rest) t := by
  refine leftBehind_congr rfl ⟨rfl, rfl⟩ ⟨fun hleases id lease hget htenant htask hlive => ?_,
    fun hleases id lease hget htenant htask hlive => ?_⟩
  · exact List.mem_cons_of_mem _ (hleases id lease hget htenant htask hlive)
  · rcases List.mem_cons.mp (hleases id lease hget htenant htask hlive) with rfl | hmem
    · rw [h lease hget htask] at hlive
      cases hlive
    · exact hmem

/-- A recovery takes its lease off the list and changes nothing else about a finished task. -/
theorem leftBehind_recovered {queue : Store}
    (hlease : w.db.leases.get leaseId = some lease)
    (htask : w.db.tasks.get lease.taskId = some task)
    (hqueue : recoveryMove task maxRetries ≠ .none ∧ (∀ u, u ≠ task.id → SameOf u w.queue queue) ∨
      recoveryMove task maxRetries = .none ∧ queue = w.queue) :
    LeftBehind cfg ⟨((w.db.open.saveLease (lease.withStatus .expired)).saveTask
        (recoveredTask task maxRetries)).db, queue⟩ rest t ↔
      LeftBehind cfg w (leaseId :: rest) t := by
  have hid : lease.id = leaseId := Rows.key_of_get hlease
  have hkey : task.id = lease.taskId := Rows.key_of_get htask
  have hleases := get_saveLease (s := w.db.open) (l := lease.withStatus .expired)
    (Rows.get_self hlease) rfl
  have htasks := get_saveTask (s := w.db.open.saveLease (lease.withStatus .expired))
    (Rows.get_self htask) (recoveredTask_id task maxRetries)
  have hrows : (∀ id l, (w.db.open.saveLease (lease.withStatus .expired)).db.leases.get id = some l →
        l.tenantId = cfg.tenantId → l.taskId = t → l.status.live = true → id ∈ rest) ↔
      ∀ id l, w.db.leases.get id = some l → l.tenantId = cfg.tenantId → l.taskId = t →
        l.status.live = true → id ∈ leaseId :: rest := by
    constructor
    · intro h id l hget htenant ht hlive
      by_cases hlisted : id = leaseId
      · exact hlisted ▸ List.mem_cons_self
      · refine List.mem_cons_of_mem _ (h id l ?_ htenant ht hlive)
        rw [hleases, hid, if_neg hlisted]
        exact hget
    · intro h id l hget htenant ht hlive
      rw [hleases, hid] at hget
      split_ifs at hget with hlisted
      · obtain rfl := Option.some.inj hget
        cases hlive
      · exact (List.mem_cons.mp (h id l hget htenant ht hlive)).resolve_left hlisted
  by_cases ht : t = task.id
  · subst ht
    have hafter := (htasks task.id).trans (if_pos rfl)
    rcases hqueue with ⟨hmove, -⟩ | ⟨hmove, rfl⟩
    · have hstatus := recoveredTask_status hmove
      constructor
      · intro h
        rw [h.status hafter] at hstatus
        cases hstatus.2
      · intro h
        rw [h.status (Rows.get_self htask)] at hstatus
        cases hstatus.1
    · refine leftBehind_congr ?_ ⟨rfl, rfl⟩ hrows
      rw [hafter, recoveredTask, hmove]
      exact (Rows.get_self htask).symm
  · refine leftBehind_congr ((htasks t).trans (if_neg ht)) ?_ hrows
    rcases hqueue with ⟨-, hsame⟩ | ⟨-, rfl⟩
    · exact hsame t ht
    · exact ⟨rfl, rfl⟩

/-- A transaction that commits only when the queue has accepted its call does commit then. -/
theorem commitAccepted_ok {queueCall : RedisQueue.Reply String × Store}
    (hok : queueCall.1.isOk = true) :
    commitAccepted w (.ok s) queueCall = ⟨s.db, queueCall.2⟩ := by
  obtain ⟨reply, queue⟩ := queueCall
  cases reply with
  | ok value => rfl
  | refused reason | error message => cases hok

variable (cfg p) in
theorem recoverExpired_accepted (hlease : w.db.leases.get leaseId = some lease)
    (htask : w.db.tasks.get lease.taskId = some task) (hlive : lease.status.live = true)
    (haccepted : recoveryAccepted cfg p w.queue lease task = true) :
    ∃ queue, recoverExpired cfg p.amb w p.maxRetries leaseId (p.reason task.id) =
        ⟨((w.db.open.saveLease (lease.withStatus .expired)).saveTask
          (recoveredTask task p.maxRetries)).db, queue⟩ ∧
      (recoveryMove task p.maxRetries ≠ .none ∧ (∀ u, u ≠ task.id → SameOf u w.queue queue) ∨
        recoveryMove task p.maxRetries = .none ∧ queue = w.queue) := by
  have heq := recoverLease_eq (s := w.db.open) p.maxRetries hlease htask hlive
  unfold recoveryAccepted at haccepted
  unfold recoverExpired
  rw [hlease]
  dsimp only
  rw [htask]
  dsimp only
  rw [if_neg (by simp [hlive]), heq]
  cases hmove : recoveryMove task p.maxRetries with
  | none => exact ⟨w.queue, rfl, .inr ⟨rfl, rfl⟩⟩
  | deadLetter =>
    rw [hmove] at haccepted
    exact ⟨_, commitAccepted_ok haccepted, .inl ⟨by simp, fun u hu =>
      deadLetterScript_other hu _ _ _ _⟩⟩
  | requeue =>
    rw [hmove] at haccepted
    exact ⟨_, commitAccepted_ok haccepted, .inl ⟨by simp, fun u hu =>
      recoverOwnerScript_other hu _⟩⟩

/-- What a recovery turn leaves behind. -/
theorem recoverTurn_leftBehind (h : recoverTurn cfg p w leaseId = some w') :
    LeftBehind cfg w' rest t ↔ LeftBehind cfg w (leaseId :: rest) t := by
  unfold recoverTurn at h
  split at h
  next hlease =>
    obtain rfl := Option.some.inj h
    exact leftBehind_cons fun lease hget => by simp [hlease] at hget
  next lease hlease =>
    split at h
    next htask =>
      obtain rfl := Option.some.inj h
      constructor
      all_goals
        intro hleft
        obtain ⟨task, hget, -⟩ := hleft.finished
      · refine (leftBehind_cons fun l hl hlt => ?_).mp hleft
        obtain rfl := Option.some.inj (hlease.symm.trans hl)
        simp [← hlt, htask] at hget
      · refine (leftBehind_cons fun l hl hlt => ?_).mpr hleft
        obtain rfl := Option.some.inj (hlease.symm.trans hl)
        simp [← hlt, htask] at hget
    next task htask =>
      split_ifs at h with hlive haccepted
      · obtain rfl := Option.some.inj h
        refine leftBehind_cons fun l hl _ => ?_
        obtain rfl := Option.some.inj (hlease.symm.trans hl)
        simpa using hlive
      · obtain rfl := Option.some.inj h
        obtain ⟨queue, heq, hqueue⟩ :=
          recoverExpired_accepted cfg p hlease htask (by simpa using hlive) haccepted
        rw [heq]
        exact leftBehind_recovered hlease htask hqueue

theorem recoverTurns_leftBehind {ids : List String}
    (h : ids.foldlM (recoverTurn cfg p) w = some w') :
    LeftBehind cfg w' [] t ↔ LeftBehind cfg w ids t := by
  induction ids generalizing w with
  | nil =>
    obtain rfl := Option.some.inj h
    rfl
  | cons id ids ih =>
    obtain ⟨w₁, hturn, hrest⟩ := Option.bind_eq_some_iff.mp h
    exact (ih hrest).trans (recoverTurn_leftBehind hturn)

/-! ## Reconciliations -/

/-- An orphan's requeue saves nothing, or its task as queued. -/
theorem requeueOrphan_cases {taskId : String} (tenantId : String)
    (htask : s.db.tasks.get taskId = some task) :
    requeueOrphan s tenantId taskId = .ok s ∨
      ∃ retryCount, task.retryCount ≤ retryCount ∧ requeueOrphan s tenantId taskId =
        .ok (s.saveTask { task with status := .queued, retryCount }) := by
  unfold requeueOrphan
  rw [htask]
  dsimp only
  split_ifs
  · exact .inl rfl
  · cases hs : task.status with
    | running =>
      refine .inr ⟨task.retryCount + 1, Nat.le_succ _, ?_⟩
      simp [enterRecovery, transitionTask, taskAllowed, hs, bind, Except.bind, pure, Except.pure,
        ExecutionTask.withStatus]
    | claimed | recovering =>
      refine .inr ⟨task.retryCount, le_rfl, ?_⟩
      simp [transitionTask, taskAllowed, hs, bind, Except.bind, pure, Except.pure,
        ExecutionTask.withStatus]
    | _ => exact .inl rfl

/-- The cleanup call repairs nothing: without a lease key it is refused. -/
theorem completed_leftBehind (w : World) (taskId holder : String) :
    LeftBehind cfg { w with
      queue := (RedisQueue.completeOwnerScript w.queue taskId holder).2 } [] t ↔
        LeftBehind cfg w [] t := by
  by_cases ht : t = taskId
  · subst ht
    rcases completeOwnerScript_cleans w.queue t holder with hsame | hgone
    · rw [hsame]
    · constructor
      · intro h
        rw [h.payload] at hgone
        cases hgone
      · intro h
        rw [completeOwnerScript_expired h.expired, h.payload] at hgone
        cases hgone
  · exact leftBehind_congr rfl (completeOwnerScript_other ht holder) Iff.rfl

/-- A turn for a task that is not cleaned up, before or after. -/
theorem unclean_leftBehind {taskId : String} (htask : w.db.tasks.get taskId = some task)
    (hstatus : task.status.cleanedUp = false)
    (htasks : ∀ u, u ≠ taskId → w'.db.tasks.get u = w.db.tasks.get u)
    (hafter : ∀ task', w'.db.tasks.get taskId = some task' → task'.status.cleanedUp = false)
    (hleases : w'.db.leases = w.db.leases)
    (hqueue : ∀ u, u ≠ taskId → SameOf u w.queue w'.queue) :
    LeftBehind cfg w' [] t ↔ LeftBehind cfg w [] t := by
  by_cases ht : t = taskId
  · subst ht
    constructor
    · intro h
      obtain ⟨task', htask', -, hclean⟩ := h.finished
      rw [hafter task' htask'] at hclean
      cases hclean
    · intro h
      rw [h.status htask] at hstatus
      cases hstatus
  · exact leftBehind_congr (htasks t ht) (hqueue t ht) (by rw [hleases])

theorem requeued_leftBehind {taskId tenantId : String} (htask : w.db.tasks.get taskId = some task)
    (hstatus : task.status.cleanedUp = false) {queueCall : RedisQueue.Reply String × Store}
    (hqueue : ∀ u, u ≠ taskId → SameOf u w.queue queueCall.2) :
    LeftBehind cfg (commitAccepted w (requeueOrphan w.db.open tenantId taskId) queueCall) [] t ↔
      LeftBehind cfg w [] t := by
  have hsame : ∀ task', w.db.tasks.get taskId = some task' → task'.status.cleanedUp = false := by
    intro task' htask'
    obtain rfl := Option.some.inj (htask.symm.trans htask')
    exact hstatus
  have hid : task.id = taskId := Rows.key_of_get htask
  obtain ⟨reply, queue⟩ := queueCall
  rcases requeueOrphan_cases (s := w.db.open) tenantId htask with
    heq | ⟨retryCount, -, heq⟩
  · rw [heq]
    cases reply <;> exact unclean_leftBehind htask hstatus (fun _ _ => rfl) hsame rfl hqueue
  · rw [heq]
    have hrow := get_saveTask (s := w.db.open) (u := { task with status := .queued, retryCount })
      (Rows.get_self htask) rfl
    cases reply with
    | refused reason | error message =>
      exact unclean_leftBehind htask hstatus (fun _ _ => rfl) hsame rfl hqueue
    | ok value =>
      refine unclean_leftBehind htask hstatus (fun u hu => ?_) (fun task' htask' => ?_) rfl hqueue
      · exact (hrow u).trans (if_neg (hid ▸ hu))
      · obtain rfl := Option.some.inj (((hrow taskId).trans (if_pos hid.symm)).symm.trans htask')
        rfl

/-- A reconciliation turn leaves behind what it finds. -/
theorem reconcileProcessing_leftBehind {amb : Ambient} (taskId holder reason : String) :
    LeftBehind cfg (reconcileProcessing cfg amb w taskId holder reason) [] t ↔
      LeftBehind cfg w [] t := by
  unfold reconcileProcessing
  split
  · rfl
  next task htask =>
    split_ifs
    · rfl
    · have hsame : ∀ task', w.db.tasks.get taskId = some task' → task' = task :=
        fun task' h => Option.some.inj (h.symm.trans htask)
      cases hs : task.status with
      | completed | blocked | cancelled => exact completed_leftBehind w taskId holder
      | failed | deadLettered =>
        refine unclean_leftBehind htask (by rw [hs]; rfl) (fun _ _ => rfl) (fun task' h => ?_) rfl
          fun u hu => deadLetterScript_other hu _ _ _ _
        rw [hsame task' h, hs]
        rfl
      | _ =>
        exact requeued_leftBehind htask (by rw [hs]; rfl) fun u hu => recoverOwnerScript_other hu _

theorem reconcileTurns_leftBehind (payloads : List Payload) :
    LeftBehind cfg (payloads.foldl (reconcileTurn cfg p) w) [] t ↔ LeftBehind cfg w [] t := by
  induction payloads generalizing w with
  | nil => rfl
  | cons raw payloads ih =>
    refine ih.trans ?_
    unfold reconcileTurn
    split
    · rfl
    · split_ifs
      · rfl
      · exact reconcileProcessing_leftBehind _ _ _

end Recovery

/-! ## What a pass repairs -/

section Repair
variable {cfg : Config} {p : Maintenance} {w w' : World}

/-- What a pass leaves behind was there before it, and what was there it leaves. -/
theorem maintenancePass_leftBehind (h : maintenancePass cfg p w = some w') (t : String) :
    LeftBehind cfg w' [] t ↔ LeftBehind cfg w p.expired t := by
  have hquiet : Quiet w (p.cancelled.foldl reconcileCancelled (p.due.foldl (publishDue cfg) w)) :=
    (Quiet.foldl publishDue_quiet p.due w).trans (.foldl reconcileCancelled_quiet p.cancelled _)
  obtain ⟨w₁, hrecovered, hrest⟩ := Option.bind_eq_some_iff.mp h
  obtain rfl := Option.some.inj hrest
  refine (reconcileTurns_leftBehind _).trans ((recoverTurns_leftBehind hrecovered).trans ?_)
  refine leftBehind_congr (by rw [hquiet.tasks]) ⟨?_, ?_⟩ (by rw [hquiet.leases])
  · rw [hquiet.queue.1]
  · rw [hquiet.queue.2]

/-- A successful pass leaves no finished task's payload behind exactly when it found none. -/
theorem finished_payloads_removed_iff (h : maintenancePass cfg p w = some w') :
    (∀ t, ¬LeftBehind cfg w' [] t) ↔ ∀ t, ¬LeftBehind cfg w p.expired t :=
  forall_congr' fun t => not_congr (maintenancePass_leftBehind h t)

/-- The lease key of a task expires before its worker completes it. -/
def lateCompletion : List Operation :=
  [.createMission ⟨"mission", "tenant", .queued, []⟩,
    .createTask "task" "mission" none none [],
    .queueTask "task" .admitted true,
    .claimNextTask (fun _ => false) "worker" "lease" false, .startExecution "lease" "worker",
    .expireLeaseKey "task", .complete "lease" "worker" none none none]

def laterPass : Maintenance :=
  ⟨⟨"later", fun _ => "unused"⟩, 3, ["dispatch"], ["dispatch"], ["lease"], fun _ => "worker",
    fun _ => "reason"⟩

theorem finished_payloads_removed_iff_late :
    let w := exec (World.step ⟨"tenant", 30⟩ .plain) .empty (turnsOf lateCompletion)
    ∃ w', maintenancePass ⟨"tenant", 30⟩ laterPass w = some w' ∧
      ((∀ t, ¬LeftBehind ⟨"tenant", 30⟩ w' [] t) ↔
        ∀ t, ¬LeftBehind ⟨"tenant", 30⟩ w laterPass.expired t) := by
  obtain ⟨w', h⟩ := Option.isSome_iff_exists.mp (by decide +kernel :
    (maintenancePass ⟨"tenant", 30⟩ laterPass (exec (World.step ⟨"tenant", 30⟩ .plain) .empty
      (turnsOf lateCompletion))).isSome = true)
  exact ⟨w', h, finished_payloads_removed_iff h⟩

/-- A pass leaves the payload of the completed task in processing. -/
theorem completed_payload_left :
    let w := exec (World.step ⟨"tenant", 30⟩ .plain) .empty (turnsOf lateCompletion)
    ∃ w', maintenancePass ⟨"tenant", 30⟩ laterPass w = some w' ∧
      LeftBehind ⟨"tenant", 30⟩ w' [] "task" := by
  have h : ((maintenancePass ⟨"tenant", 30⟩ laterPass (exec (World.step ⟨"tenant", 30⟩ .plain)
      .empty (turnsOf lateCompletion))).any
        fun w' => decide (LeftBehind ⟨"tenant", 30⟩ w' [] "task")) = true := by decide +kernel
  obtain ⟨w', hpass, hleft⟩ := (Option.any_eq_true ..).mp h
  exact ⟨w', hpass, of_decide_eq_true hleft⟩

end Repair
end Ajenda.Runtime
