import Ajenda.DispatchLedger
import Ajenda.QueueDelivery

/-!
# Publication of dispatches, once for each generation

The dispatch service and the queue, with a record of the idempotency keys that were armed and
of those under which a payload went to pending. A publication may lose its acknowledgement:
the queue keeps what it has done and the rows stay as they were. Between the calls of the
service the workers use the queue and the other services change the tasks as they like.
-/
namespace Ajenda.Runtime
open JsonValue KeyedRows FiniteTable TransitionSystem
open RedisQueue (Config Store Op)

/-- `_idempotency_key` of a row; `none` when its generation is invalid and the call raises. -/
def dispatchKey (dispatch : RuntimeQueueDispatch) : Option String :=
  (retryGeneration dispatch.payload).toOption.map (idempotencyKey dispatch.id)

/-- `armings` holds the key of every arming and `deliveries` the key of every payload the
service has added to pending, the latest first. -/
structure Outbox where
  db : Db
  queue : Store
  armings : List (Option String)
  deliveries : List String

def Outbox.empty : Outbox := ⟨.empty, .empty, [], []⟩

/-- What a queue call does that the dispatch service does not make. -/
def Outbox.foreign : Op → Bool
  | .enqueueIdempotent _ _ _ => false
  | _ => true

inductive OutboxOp
  | admitTask (amb : Ambient) (plain : ∀ taskId, ':' ∉ (amb.dispatchId taskId).toList)
      (task : ExecutionTask) (heldForReview : Bool)
  | releaseReviewHold (task : ExecutionTask)
  | retry (amb : Ambient) (plain : ∀ taskId, ':' ∉ (amb.dispatchId taskId).toList)
      (task : ExecutionTask)
  | cancel (task : ExecutionTask)
  | publishCommitted (dispatchId : String) (acknowledged : Bool)
  | publishDue (dispatchId : String) (acknowledged : Bool)
  | reconcileCancelled (dispatchId : String) (acknowledged : Bool)
  | queueCall (op : Op) (foreign : Outbox.foreign op = true)
  | saveTasks (tasks : Rows ExecutionTask)

/-- The keys of the dispatches a session has scheduled. -/
def armedKeys (s : Session) : List (Option String) :=
  s.intents.map fun id => (s.db.dispatches.get id).bind dispatchKey

/-- Commit a session of the dispatch service, or nothing when it raises. -/
def Outbox.commit (o : Outbox) : Except Error Session → Outbox
  | .ok s => { o with db := s.db, armings := armedKeys s ++ o.armings }
  | .error _ => o

section Steps
variable (cfg : Config) (o : Outbox)

/-- `_publish` of a row that is read as pending, then the acknowledgement if it is not lost. -/
def Outbox.publishRow (dispatch : RuntimeQueueDispatch) (acknowledged : Bool) : Outbox :=
  let (ok, queue) := publish cfg o.queue dispatch
  let added := queue.pendingPayloads.has dispatch.taskId &&
    !o.queue.pendingPayloads.has dispatch.taskId
  { o with
    db := if ok && acknowledged then (acknowledgePublication o.db.open dispatch.id).db else o.db
    queue
    deliveries := (if added then (dispatchKey dispatch).toList else []) ++ o.deliveries }

/-- A turn of `_publish_committed_dispatches`. -/
def Outbox.publishCommitted (dispatchId : String) (acknowledged : Bool) : Outbox :=
  match o.db.dispatches.get dispatchId with
  | none => o
  | some dispatch =>
    if dispatch.status = .pending then o.publishRow cfg dispatch acknowledged else o

/-- The task of a dispatch is still queued. -/
def stillQueued (db : Db) (dispatch : RuntimeQueueDispatch) : Bool :=
  match db.tasks.get dispatch.taskId with
  | none => false
  | some task => task.tenantId = dispatch.tenantId && task.status = .queued

/-- A turn of `publish_due`. -/
def Outbox.publishDue (dispatchId : String) (acknowledged : Bool) : Outbox :=
  match o.db.dispatches.get dispatchId with
  | none => o
  | some dispatch =>
    if stillQueued o.db dispatch then o.publishCommitted cfg dispatchId acknowledged
    else if acknowledged then { o with db := (dropDueDispatch o.db.open dispatchId).db }
    else o

/-- A turn of `reconcile_cancelled`. -/
def Outbox.reconcileCancelled (dispatchId : String) (acknowledged : Bool) : Outbox :=
  match o.db.dispatches.get dispatchId with
  | none => o
  | some dispatch =>
    if dispatch.status = .cancelled && dispatch.published && !dispatch.cleaned then
      match RedisQueue.cancelPendingTaskScript o.queue dispatch.taskId with
      | (.ok _, queue) =>
        { o with
          queue
          db := if acknowledged then (acknowledgeCleanup o.db.open dispatchId).db else o.db }
      | (_, queue) => { o with queue }
    else o

def Outbox.step : OutboxOp → Outbox
  | .admitTask amb _ task heldForReview =>
      o.commit ((Runtime.admitTask amb o.db.open task heldForReview).map Prod.fst)
  | .releaseReviewHold task => o.commit (Runtime.releaseReviewHold o.db.open task)
  | .retry amb _ task => o.commit (Runtime.retry amb o.db.open task)
  | .cancel task => o.commit (.ok (Runtime.cancel o.db.open task))
  | .publishCommitted dispatchId acknowledged => o.publishCommitted cfg dispatchId acknowledged
  | .publishDue dispatchId acknowledged => o.publishDue cfg dispatchId acknowledged
  | .reconcileCancelled dispatchId acknowledged => o.reconcileCancelled dispatchId acknowledged
  | .queueCall op _ => { o with queue := RedisQueue.step cfg o.queue op }
  | .saveTasks tasks => { o with db := { o.db with tasks } }

/-- The generation the metadata of a task brings along is a number, if it has one. -/
def plainGeneration (task : ExecutionTask) : Bool := (retryGeneration task.metadata).isOk

/-- A publication that repeats a delivery of a later generation finds the payload in the queue,
or the key marked and no dead-letter entry. -/
def Outbox.repeatsSafely (dispatch : RuntimeQueueDispatch) : Bool :=
  match retryGeneration dispatch.payload with
  | .error _ => true
  | .ok generation =>
    generation = 0 || idempotencyKey dispatch.id generation ∉ o.deliveries ||
      o.queue.pendingPayloads.has dispatch.taskId ||
      o.queue.processingPayloads.has dispatch.taskId ||
      (o.queue.dispatchKeys.has (idempotencyKey dispatch.id generation) &&
        !o.queue.deadPayloads.has dispatch.taskId)

/-- The guard of a publication: the row is not pending, or it repeats safely. -/
def Outbox.publishesSafely (dispatchId : String) : Bool :=
  match o.db.dispatches.get dispatchId with
  | none => true
  | some dispatch => dispatch.status ≠ .pending || o.repeatsSafely dispatch

/-- An admission of the task arms a row with the metadata of the task as its payload. -/
def Outbox.takesMetadata (task : ExecutionTask) : Bool :=
  match o.db.dispatchForTask task.tenantId task.id with
  | none => true
  | some dispatch => dispatch.status = .heldReview

def Outbox.guard : OutboxOp → Bool
  | .admitTask _ _ task heldForReview =>
      heldForReview || !o.takesMetadata task || plainGeneration task
  | .releaseReviewHold task => plainGeneration task
  | .retry _ _ task =>
      (o.db.dispatchForTask task.tenantId task.id).isSome || plainGeneration task
  | .publishCommitted dispatchId _ | .publishDue dispatchId _ => o.publishesSafely dispatchId
  | _ => true

end Steps

/-- The keys that were armed belong to generations the rows have reached, each to one. -/
structure Armings (rows : Rows RuntimeQueueDispatch) (armings : List (Option String)) : Prop where
  nodup : armings.Nodup
  keyed : none ∉ armings
  plain : ∀ id d, rows.get id = some d → ':' ∉ id.toList
  armed : ∀ key, some key ∈ armings → ∃ id d generation current, rows.get id = some d ∧
    key = idempotencyKey id generation ∧ d.status ≠ .heldReview ∧
    retryGeneration d.payload = .ok current ∧ generation ≤ current
  pending : ∀ id d, rows.get id = some d → d.status = .pending → dispatchKey d ∈ armings

section Armings
variable {rows : Rows RuntimeQueueDispatch} {armings : List (Option String)}
  {d r : RuntimeQueueDispatch}

theorem Armings.empty : Armings .empty [] := by
  constructor <;> simp

/-- A write that arms nothing. -/
theorem Armings.update (h : Armings rows armings) (hget : rows.get d.id = some d)
    (hid : r.id = d.id) (hpayload : r.payload = d.payload)
    (hheld : r.status = .heldReview → d.status = .heldReview)
    (hpending : r.status = .pending → d.status = .pending) : Armings (rows.set r) armings := by
  have hrow := Rows.get_set_of_get (q := d) (r := r) hget hid
  refine ⟨h.nodup, h.keyed, fun id e he => ?_, fun key hkey => ?_, fun id e he hstatus => ?_⟩
  · rw [hrow] at he
    split_ifs at he with hk
    · exact hk ▸ h.plain _ d hget
    · exact h.plain id e he
  · obtain ⟨id, e, generation, current, he, hkey, hne, hcurrent, hle⟩ := h.armed key hkey
    by_cases hk : id = d.id
    · subst hk
      obtain rfl : d = e := Option.some.inj (hget.symm.trans he)
      refine ⟨d.id, r, generation, current, (hrow d.id).trans (if_pos rfl), hkey, ?_, ?_, hle⟩
      · exact fun hr => hne (hheld hr)
      · rw [hpayload, hcurrent]
    · exact ⟨id, e, generation, current, (hrow id).trans ((if_neg hk).trans he), hkey, hne,
        hcurrent, hle⟩
  · rw [hrow] at he
    split_ifs at he with hk
    · obtain rfl := Option.some.inj he
      have hsame : dispatchKey r = dispatchKey d := by rw [dispatchKey, dispatchKey, hpayload, hid]
      rw [hsame]
      exact h.pending _ d hget (hpending hstatus)
    · exact h.pending id e he hstatus

theorem dispatchKey_eq_some {key : String} : dispatchKey d = some key ↔
    ∃ generation, retryGeneration d.payload = .ok generation ∧
      key = idempotencyKey d.id generation := by
  unfold dispatchKey
  cases retryGeneration d.payload with
  | error e => simp [Except.toOption]
  | ok generation => simp [Except.toOption, eq_comm]

/-- A row of a fresh generation is armed. -/
theorem Armings.arm {rows' : Rows RuntimeQueueDispatch} {generation : ℕ}
    (h : Armings rows armings)
    (hrow : ∀ k, rows'.get k = if k = r.id then some r else rows.get k)
    (hplain : ':' ∉ r.id.toList) (hstatus : r.status = .pending)
    (hgeneration : retryGeneration r.payload = .ok generation)
    (hfresh : ∀ d, rows.get r.id = some d → d.status ≠ .heldReview →
      ∀ current, retryGeneration d.payload = .ok current → current < generation) :
    Armings rows' (dispatchKey r :: armings) := by
  have hkey : dispatchKey r = some (idempotencyKey r.id generation) :=
    dispatchKey_eq_some.mpr ⟨generation, hgeneration, rfl⟩
  have hself : rows'.get r.id = some r := (hrow r.id).trans (if_pos rfl)
  have hnew : dispatchKey r ∉ armings := by
    rw [hkey]
    intro hmem
    obtain ⟨id, e, g, current, he, heq, hne, hcurrent, hle⟩ := h.armed _ hmem
    obtain ⟨rfl, rfl⟩ := idempotencyKey_inj hplain (h.plain id e he) heq
    have hlt := hfresh e he hne current hcurrent
    omega
  refine ⟨List.nodup_cons.mpr ⟨hnew, h.nodup⟩, ?_, fun id e he => ?_, fun key hmem => ?_,
    fun id e he hpending => ?_⟩
  · simp [hkey, h.keyed]
  · rw [hrow] at he
    split_ifs at he with hk
    · exact hk ▸ hplain
    · exact h.plain id e he
  · rcases List.mem_cons.mp hmem with heq | hmem
    · rw [hkey] at heq
      obtain rfl := Option.some.inj heq
      exact ⟨r.id, r, generation, generation, hself, rfl, by simp [hstatus], hgeneration, le_rfl⟩
    · obtain ⟨id, e, g, current, he, heq, hne, hcurrent, hle⟩ := h.armed _ hmem
      by_cases hk : id = r.id
      · subst hk
        have hlt := hfresh e he hne current hcurrent
        exact ⟨r.id, r, g, generation, hself, heq, by simp [hstatus], hgeneration, by omega⟩
      · exact ⟨id, e, g, current, (hrow id).trans ((if_neg hk).trans he), heq, hne, hcurrent, hle⟩
  · rw [hrow] at he
    split_ifs at he with hk
    · obtain rfl := Option.some.inj he
      exact List.mem_cons_self
    · exact List.mem_cons_of_mem _ (h.pending id e he hpending)

/-- A row that is held for review is inserted. -/
theorem Armings.insertHeld {rows' : Rows RuntimeQueueDispatch} (h : Armings rows armings)
    (hinsert : rows.insert r = some rows') (hplain : ':' ∉ r.id.toList)
    (hstatus : r.status = .heldReview) : Armings rows' armings := by
  have hrow : ∀ k, rows'.get k = if k = r.id then some r else rows.get k := Rows.get_insert hinsert
  have hnone : rows.get r.id = none := Rows.get_of_insert hinsert
  refine ⟨h.nodup, h.keyed, fun id e he => ?_, fun key hkey => ?_, fun id e he hpending => ?_⟩
  · rw [hrow] at he
    split_ifs at he with hk
    · exact hk ▸ hplain
    · exact h.plain id e he
  · obtain ⟨id, e, generation, current, he, hrest⟩ := h.armed key hkey
    have hk : id ≠ r.id := by
      rintro rfl
      rw [hnone] at he
      cases he
    exact ⟨id, e, generation, current, (hrow id).trans ((if_neg hk).trans he), hrest⟩
  · rw [hrow] at he
    split_ifs at he with hk
    · obtain rfl := Option.some.inj he
      rw [hstatus] at hpending
      cases hpending
    · exact h.pending id e he hpending

end Armings

section Services
variable {db : Db} {armings : List (Option String)} {amb : Ambient} {s : Session}
  {task : ExecutionTask}

theorem plainGeneration_iff : plainGeneration task = true ↔
    ∃ generation, retryGeneration task.metadata = .ok generation := by
  unfold plainGeneration
  cases retryGeneration task.metadata with
  | error e => simp [Except.isOk, Except.toBool]
  | ok generation => simp [Except.isOk, Except.toBool]

theorem armedKeys_schedule (s : Session) {r : RuntimeQueueDispatch} (hintents : s.intents = [])
    (hget : s.db.dispatches.get r.id = some r) :
    armedKeys (scheduleAfterCommit s r) = [dispatchKey r] := by
  simp [armedKeys, scheduleAfterCommit, hintents, hget]

/-- A stored row is armed again. -/
theorem Armings.rearm {d r : RuntimeQueueDispatch} {generation : ℕ}
    (h : Armings db.dispatches armings) (hget : db.dispatches.get d.id = some d)
    (hid : r.id = d.id) (hstatus : r.status = .pending)
    (hgeneration : retryGeneration r.payload = .ok generation)
    (hfresh : d.status ≠ .heldReview →
      ∀ current, retryGeneration d.payload = .ok current → current < generation) :
    Armings (scheduleAfterCommit (db.open.saveDispatch r) r).db.dispatches
      (armedKeys (scheduleAfterCommit (db.open.saveDispatch r) r) ++ armings) := by
  have hrow := get_saveDispatch (s := db.open) hget hid
  have hself : (db.open.saveDispatch r).db.dispatches.get r.id = some r := by
    rw [hrow, if_pos hid]
  rw [armedKeys_schedule _ rfl hself, scheduleAfterCommit_db]
  refine h.arm (fun k => ?_) (hid ▸ h.plain _ d hget) hstatus hgeneration ?_
  · rw [hrow, hid]
    rfl
  · rw [hid, hget]
    rintro e ⟨⟩
    exact hfresh

theorem Armings.releaseReviewHold (h : Armings db.dispatches armings)
    (hplain : plainGeneration task = true)
    (hs : Runtime.releaseReviewHold db.open task = .ok s) :
    Armings s.db.dispatches (armedKeys s ++ armings) := by
  obtain ⟨generation, hgeneration⟩ := plainGeneration_iff.mp hplain
  unfold Runtime.releaseReviewHold at hs
  split at hs
  · cases hs
  next d hd =>
    split_ifs at hs with hheld
    rw [not_not] at hheld
    obtain rfl := Except.ok.inj hs
    exact h.rearm (dispatchForTask_eq_some hd).1 rfl rfl hgeneration fun hne => absurd hheld hne

theorem Armings.admitTask {held created : Bool} (h : Armings db.dispatches armings)
    (hid : ∀ taskId, ':' ∉ (amb.dispatchId taskId).toList)
    (hplain : held = false → (∀ d, db.dispatchForTask task.tenantId task.id = some d →
      d.status = .heldReview) → plainGeneration task = true)
    (hs : Runtime.admitTask amb db.open task held = .ok (s, created)) :
    Armings s.db.dispatches (armedKeys s ++ armings) := by
  unfold Runtime.admitTask at hs
  split at hs
  next d hd =>
    split_ifs at hs with hrelease
    · obtain ⟨s₁, hs₁, hrest⟩ := bind_eq_ok.mp hs
      obtain ⟨rfl, -⟩ := Prod.mk.inj (Except.ok.inj hrest)
      simp only [Bool.and_eq_true, Bool.not_eq_true', decide_eq_true_eq] at hrelease
      refine h.releaseReviewHold (hplain hrelease.1 fun e he => ?_) hs₁
      obtain rfl : d = e := Option.some.inj (hd.symm.trans he)
      exact hrelease.2
    · obtain ⟨rfl, -⟩ := Prod.mk.inj (Except.ok.inj hs)
      exact h
  next hnone =>
    obtain ⟨s₁, hadd, hrest⟩ := bind_eq_ok.mp hs
    obtain ⟨rfl, -⟩ := Prod.mk.inj (Except.ok.inj hrest)
    obtain ⟨dispatches, hinsert, rfl⟩ := addDispatch_eq_ok hadd
    cases held with
    | true => exact h.insertHeld hinsert (hid task.id) rfl
    | false =>
      obtain ⟨generation, hgeneration⟩ := plainGeneration_iff.mp
        (hplain rfl fun e he => absurd (hnone.symm.trans he) (by simp))
      have hrow := Rows.get_insert hinsert
      have habsent := Rows.get_of_insert hinsert
      simp only [Bool.false_eq_true, if_false]
      rw [armedKeys_schedule _ rfl ((hrow _).trans (if_pos rfl)), scheduleAfterCommit_db]
      exact h.arm hrow (hid task.id) rfl hgeneration fun e he =>
        absurd (habsent.symm.trans he) (by simp)

theorem Armings.retry (h : Armings db.dispatches armings)
    (hid : ∀ taskId, ':' ∉ (amb.dispatchId taskId).toList)
    (hplain : db.dispatchForTask task.tenantId task.id = none → plainGeneration task = true)
    (hs : Runtime.retry amb db.open task = .ok s) :
    Armings s.db.dispatches (armedKeys s ++ armings) := by
  unfold Runtime.retry at hs
  split at hs
  next hnone =>
    obtain ⟨⟨s₁, created⟩, hadmission, hrest⟩ := bind_eq_ok.mp hs
    obtain rfl := Except.ok.inj hrest
    exact h.admitTask hid (fun _ _ => hplain hnone) hadmission
  next d hd =>
    obtain ⟨generation, hgeneration, hrest⟩ := bind_eq_ok.mp hs
    obtain rfl := Except.ok.inj hrest
    refine h.rearm (dispatchForTask_eq_some hd).1 rfl rfl
      (retryGeneration_set task.metadata (generation + 1)) fun _ current hcurrent => ?_
    obtain rfl := Except.ok.inj (hcurrent.symm.trans hgeneration)
    omega

theorem Armings.cancel (h : Armings db.dispatches armings) :
    Armings (Runtime.cancel db.open task).db.dispatches
      (armedKeys (Runtime.cancel db.open task) ++ armings) := by
  unfold Runtime.cancel
  split
  · exact h
  next d hd =>
    split_ifs
    · exact h
    · exact h.update (dispatchForTask_eq_some hd).1 rfl rfl (fun hr => by cases hr)
        fun hr => by cases hr

end Services

section Publications
variable {cfg : Config} {queue : Store} {d : RuntimeQueueDispatch} {generation : ℕ}

theorem enqueueGeneration_marked (h : queue.dispatchKeys.has (idempotencyKey d.id generation) = true) :
    enqueueGeneration queue d generation = (true, queue) := by
  simp [enqueueGeneration, RedisQueue.idempotentEnqueueScript, h]

/-- The idempotent enqueue does nothing, or marks its key and adds the payload. -/
theorem enqueueGeneration_cases (queue : Store) (d : RuntimeQueueDispatch) (generation : ℕ) :
    (enqueueGeneration queue d generation).2 = queue ∨
    (queue.dispatchKeys.has (idempotencyKey d.id generation) = false ∧
      (enqueueGeneration queue d generation).2.dispatchKeys =
        queue.dispatchKeys.put (idempotencyKey d.id generation) () ∧
      queue.pendingPayloads.has d.taskId = false ∧
      (enqueueGeneration queue d generation).2.pendingPayloads.has d.taskId = true) := by
  unfold enqueueGeneration RedisQueue.idempotentEnqueueScript
  by_cases hmarked : queue.dispatchKeys.has (idempotencyKey d.id generation) = true
  · simp [hmarked]
  · by_cases hprocessing : queue.processingPayloads.has d.taskId = true
    · simp [hmarked, hprocessing]
    · by_cases hpending : queue.pendingPayloads.has d.taskId = true
      · simp [hmarked, hprocessing, hpending]
      · right
        simp [hmarked, hprocessing, hpending, Store.pushPending, Table.has_put]

variable (cfg queue) in
/-- What `_publish` does: nothing, a recovery of the dead-letter entry in a later generation,
or an idempotent enqueue under a key that was not marked. -/
theorem publish_cases (hgeneration : retryGeneration d.payload = .ok generation) :
    (publish cfg queue d).2 = queue ∨
    (generation ≠ 0 ∧ (publish cfg queue d).2.dispatchKeys = queue.dispatchKeys) ∨
    (queue.dispatchKeys.has (idempotencyKey d.id generation) = false ∧
      (publish cfg queue d).2.dispatchKeys =
        queue.dispatchKeys.put (idempotencyKey d.id generation) () ∧
      queue.pendingPayloads.has d.taskId = false ∧
      (publish cfg queue d).2.pendingPayloads.has d.taskId = true) := by
  have henqueue := enqueueGeneration_cases queue d generation
  unfold publish
  simp only [hgeneration]
  by_cases hzero : generation = 0
  · rw [if_pos hzero]
    exact henqueue.imp_right .inr
  · rw [if_neg hzero]
    have hkeys : (RedisQueue.step cfg queue (.retryDeadLetter d.taskId)).dispatchKeys =
        queue.dispatchKeys := RedisQueue.dispatchKeys_step cfg (by simp)
    rw [RedisQueue.step] at hkeys
    cases hretry : RedisQueue.retryDeadLetterScript queue cfg.tenantId d.taskId with
    | mk reply queue' =>
      rw [hretry] at hkeys
      cases reply with
      | ok value => exact .inr (.inl ⟨hzero, hkeys⟩)
      | error message => exact .inr (.inl ⟨hzero, hkeys⟩)
      | refused reason =>
        obtain ⟨rfl, -⟩ := retryDeadLetterScript_refused cfg hretry
        dsimp only
        split_ifs
        · exact .inl rfl
        · exact .inl rfl
        · exact henqueue.imp_right .inr

/-- A publication that finds its key marked, or in a later generation its payload in the queue,
answers success and does nothing. -/
theorem publish_repeated (hgeneration : retryGeneration d.payload = .ok generation)
    (h : (generation = 0 ∧ queue.dispatchKeys.has (idempotencyKey d.id generation) = true) ∨
      (generation ≠ 0 ∧ (queue.pendingPayloads.has d.taskId = true ∨
        queue.processingPayloads.has d.taskId = true ∨
        (queue.dispatchKeys.has (idempotencyKey d.id generation) = true ∧
          queue.deadPayloads.has d.taskId = false)))) :
    publish cfg queue d = (true, queue) := by
  unfold publish
  simp only [hgeneration]
  rcases h with ⟨rfl, hmarked⟩ | ⟨hzero, hplace⟩
  · rw [if_pos rfl, enqueueGeneration_marked hmarked]
  · rw [if_neg hzero]
    by_cases hpending : queue.pendingPayloads.has d.taskId = true
    · simp [RedisQueue.retryDeadLetterScript, hpending]
    · by_cases hprocessing : queue.processingPayloads.has d.taskId = true
      · simp [RedisQueue.retryDeadLetterScript, hpending, hprocessing]
      · obtain ⟨hmarked, hdead⟩ := (hplace.resolve_left hpending).resolve_left hprocessing
        have hnone : queue.deadPayloads.get d.taskId = none := Table.has_eq_false.mp hdead
        simp [RedisQueue.retryDeadLetterScript, hpending, hprocessing, hnone,
          enqueueGeneration_marked hmarked]

end Publications

section Acknowledgements
variable {db : Db} {armings : List (Option String)}

theorem Armings.acknowledgePublication (h : Armings db.dispatches armings) (id : String) :
    Armings (Runtime.acknowledgePublication db.open id).db.dispatches armings := by
  unfold Runtime.acknowledgePublication
  split
  · exact h
  next d hd =>
    split_ifs
    · exact h.update (Rows.get_self hd) rfl rfl (fun hr => by cases hr) fun hr => by cases hr
    · exact h

theorem Armings.dropDueDispatch (h : Armings db.dispatches armings) (id : String) :
    Armings (Runtime.dropDueDispatch db.open id).db.dispatches armings := by
  unfold Runtime.dropDueDispatch
  split
  · exact h
  next d hd =>
    dsimp only
    split_ifs
    · exact h.update (Rows.get_self hd) rfl rfl (fun hr => by cases hr) fun hr => by cases hr
    · exact h

theorem Armings.acknowledgeCleanup (h : Armings db.dispatches armings) (id : String) :
    Armings (Runtime.acknowledgeCleanup db.open id).db.dispatches armings := by
  unfold Runtime.acknowledgeCleanup
  split
  · exact h
  next d hd =>
    split_ifs
    · exact h.update (Rows.get_self hd) rfl rfl (fun hr => hr) fun hr => hr
    · exact h

end Acknowledgements

/-- Every delivery was armed under its key, no two under one key, and the queue marks the
deliveries of a first generation and nothing that was not delivered. -/
structure Recorded (o : Outbox) : Prop where
  armings : Armings o.db.dispatches o.armings
  once : o.deliveries.Nodup
  armed : ∀ key ∈ o.deliveries, some key ∈ o.armings
  marked : ∀ key, o.queue.dispatchKeys.has key = true → key ∈ o.deliveries
  first : ∀ id, ':' ∉ id.toList → idempotencyKey id 0 ∈ o.deliveries →
    o.queue.dispatchKeys.has (idempotencyKey id 0) = true

section Records
variable {cfg : Config} {o : Outbox}

theorem Recorded.empty : Recorded .empty where
  armings := .empty
  once := List.nodup_nil
  armed := by simp [Outbox.empty]
  marked := by simp [Outbox.empty, Store.empty]
  first := by simp [Outbox.empty]

/-- A change of the rows that arms what it schedules. -/
theorem Recorded.commit {result : Except Error Session} (h : Recorded o)
    (hs : ∀ s, result = .ok s → Armings s.db.dispatches (armedKeys s ++ o.armings)) :
    Recorded (o.commit result) := by
  cases result with
  | error e => exact h
  | ok s =>
    refine ⟨hs s rfl, h.once, fun key hkey => ?_, h.marked, h.first⟩
    exact List.mem_append_right _ (h.armed key hkey)

theorem Recorded.withDb (h : Recorded o) {db : Db} (hdb : Armings db.dispatches o.armings) :
    Recorded { o with db } := ⟨hdb, h.once, h.armed, h.marked, h.first⟩

/-- A safe repetition of a delivery answers success and leaves the queue. -/
theorem Recorded.repeated (cfg : Config) {d : RuntimeQueueDispatch} {generation : ℕ} (h : Recorded o)
    (hplain : ':' ∉ d.id.toList) (hgeneration : retryGeneration d.payload = .ok generation)
    (hdelivered : idempotencyKey d.id generation ∈ o.deliveries)
    (hsafe : o.repeatsSafely d = true) : publish cfg o.queue d = (true, o.queue) := by
  refine publish_repeated hgeneration ?_
  by_cases hzero : generation = 0
  · subst hzero
    exact .inl ⟨rfl, h.first _ hplain hdelivered⟩
  · simp only [Outbox.repeatsSafely, hgeneration, hzero, hdelivered, Bool.or_eq_true,
      decide_eq_true_eq, not_true_eq_false, or_false, false_or, Bool.and_eq_true,
      Bool.not_eq_true'] at hsafe
    exact .inr ⟨hzero, by tauto⟩

theorem Recorded.publishRow {d : RuntimeQueueDispatch} {acknowledged : Bool} (h : Recorded o)
    (hget : o.db.dispatches.get d.id = some d) (hpending : d.status = .pending)
    (hsafe : o.repeatsSafely d = true) : Recorded (o.publishRow cfg d acknowledged) := by
  have hplain := h.armings.plain _ d hget
  have harmed := h.armings.pending _ d hget hpending
  obtain ⟨key, hkey⟩ := Option.ne_none_iff_exists'.mp
    (fun hnone : dispatchKey d = none => h.armings.keyed (hnone ▸ harmed))
  obtain ⟨generation, hgeneration, rfl⟩ := dispatchKey_eq_some.mp hkey
  rw [hkey] at harmed
  have hdb : Armings (o.publishRow cfg d acknowledged).db.dispatches o.armings := by
    simp only [Outbox.publishRow]
    split_ifs
    · exact h.armings.acknowledgePublication d.id
    · exact h.armings
  by_cases hdelivered : idempotencyKey d.id generation ∈ o.deliveries
  · have hrepeat := h.repeated cfg hplain hgeneration hdelivered hsafe
    have hsame : o.publishRow cfg d acknowledged =
        { o with db := (o.publishRow cfg d acknowledged).db } := by
      simp [Outbox.publishRow, hrepeat]
    rw [hsame]
    exact h.withDb hdb
  · -- the first delivery under this key, if there is one
    have hdeliveries : (o.publishRow cfg d acknowledged).deliveries = o.deliveries ∨
        (o.publishRow cfg d acknowledged).deliveries =
          idempotencyKey d.id generation :: o.deliveries := by
      simp only [Outbox.publishRow, hkey, Option.toList_some]
      split_ifs <;> simp
    have hmem : ∀ key ∈ (o.publishRow cfg d acknowledged).deliveries,
        key = idempotencyKey d.id generation ∨ key ∈ o.deliveries := by
      intro key hmem
      rcases hdeliveries with hsame | hcons
      · exact .inr (hsame ▸ hmem)
      · rw [hcons] at hmem
        exact List.mem_cons.mp hmem
    have hkept : ∀ key ∈ o.deliveries, key ∈ (o.publishRow cfg d acknowledged).deliveries := by
      intro key hmem
      simp only [Outbox.publishRow]
      exact List.mem_append_right _ hmem
    have hmarks : (∀ key, (o.publishRow cfg d acknowledged).queue.dispatchKeys.has key = true →
          key ∈ (o.publishRow cfg d acknowledged).deliveries) ∧
        ∀ id, ':' ∉ id.toList → idempotencyKey id 0 ∈ (o.publishRow cfg d acknowledged).deliveries →
          (o.publishRow cfg d acknowledged).queue.dispatchKeys.has (idempotencyKey id 0) = true := by
      have hqueue : (o.publishRow cfg d acknowledged).queue = (publish cfg o.queue d).2 := rfl
      rw [hqueue]
      rcases publish_cases cfg o.queue hgeneration with
        hsame | ⟨hlater, hkeys⟩ | ⟨-, hkeys, hbefore, hafter⟩
      · rw [hsame]
        refine ⟨fun key hmarked => hkept key (h.marked key hmarked), fun id hid hfirst => ?_⟩
        have hnone : (o.publishRow cfg d acknowledged).deliveries = o.deliveries := by
          simp [Outbox.publishRow, hsame]
        rw [hnone] at hfirst
        exact h.first id hid hfirst
      · rw [hkeys]
        refine ⟨fun key hmarked => hkept key (h.marked key hmarked), fun id hid hfirst => ?_⟩
        rcases hmem _ hfirst with heq | hold
        · exact absurd (idempotencyKey_inj hid hplain heq).2.symm hlater
        · exact h.first id hid hold
      · rw [hkeys]
        have hcons : (o.publishRow cfg d acknowledged).deliveries =
            idempotencyKey d.id generation :: o.deliveries := by
          simp [Outbox.publishRow, hbefore, hafter, hkey]
        refine ⟨fun key hmarked => ?_, fun id hid hfirst => ?_⟩
        · rw [Table.has_put, Bool.or_eq_true, decide_eq_true_eq] at hmarked
          rw [hcons]
          rcases hmarked with rfl | hold
          · exact List.mem_cons_self
          · exact List.mem_cons_of_mem _ (h.marked key hold)
        · rw [Table.has_put, Bool.or_eq_true, decide_eq_true_eq]
          exact (hmem _ hfirst).imp_right (h.first id hid)
    refine ⟨hdb, ?_, fun key hkey => ?_, hmarks.1, hmarks.2⟩
    · rcases hdeliveries with hsame | hcons
      · rw [hsame]
        exact h.once
      · rw [hcons]
        exact List.nodup_cons.mpr ⟨hdelivered, h.once⟩
    · rcases hmem key hkey with rfl | hold
      · exact harmed
      · exact h.armed key hold

theorem Recorded.publishCommitted (h : Recorded o) {id : String} {acknowledged : Bool}
    (hsafe : o.publishesSafely id = true) : Recorded (o.publishCommitted cfg id acknowledged) := by
  unfold Outbox.publishCommitted
  unfold Outbox.publishesSafely at hsafe
  cases hget : o.db.dispatches.get id with
  | none => exact h
  | some d =>
    dsimp only
    split_ifs with hpending
    · rw [hget] at hsafe
      simp only [hpending, ne_eq, not_true_eq_false, decide_false, Bool.false_or] at hsafe
      exact h.publishRow (Rows.get_self hget) hpending hsafe
    · exact h

theorem Recorded.step {op : OutboxOp} (h : Recorded o) (hguard : o.guard op = true) :
    Recorded (o.step cfg op) := by
  cases op with
  | admitTask amb plain task held =>
    refine h.commit fun s hs => ?_
    obtain ⟨created, hadmission⟩ : ∃ created,
        Runtime.admitTask amb o.db.open task held = .ok (s, created) := by
      cases hresult : Runtime.admitTask amb o.db.open task held with
      | error e => simp [hresult, Except.map] at hs
      | ok result =>
        obtain ⟨s₁, created⟩ := result
        obtain rfl : s₁ = s := by simpa [hresult, Except.map] using hs
        exact ⟨created, rfl⟩
    refine h.armings.admitTask plain (fun hheld hstatus => ?_) hadmission
    have htakes : o.takesMetadata task = true := by
      unfold Outbox.takesMetadata
      split
      · rfl
      next d hd => simpa using hstatus d hd
    simpa [Outbox.guard, hheld, htakes] using hguard
  | releaseReviewHold task =>
    exact h.commit fun s hs => h.armings.releaseReviewHold hguard hs
  | retry amb plain task =>
    refine h.commit fun s hs => h.armings.retry plain (fun hnone => ?_) hs
    simpa [Outbox.guard, hnone] using hguard
  | cancel task =>
    have hcommit : Recorded (o.commit (.ok (Runtime.cancel o.db.open task))) := by
      refine h.commit fun s hs => ?_
      obtain rfl := Except.ok.inj hs
      exact h.armings.cancel
    exact hcommit
  | publishCommitted id acknowledged => exact h.publishCommitted hguard
  | publishDue id acknowledged =>
    simp only [Outbox.step, Outbox.publishDue]
    split
    · exact h
    · split_ifs
      · exact h.publishCommitted hguard
      · exact h.withDb (h.armings.dropDueDispatch id)
      · exact h
  | reconcileCancelled id acknowledged =>
    simp only [Outbox.step, Outbox.reconcileCancelled]
    split
    · exact h
    next d hd =>
      have hkeys : (RedisQueue.step cfg o.queue (.cancel d.taskId)).dispatchKeys =
          o.queue.dispatchKeys := RedisQueue.dispatchKeys_step cfg (by simp)
      rw [RedisQueue.step] at hkeys
      have hcleanup : Armings (if acknowledged then (acknowledgeCleanup o.db.open id).db
          else o.db).dispatches o.armings := by
        split_ifs
        · exact h.armings.acknowledgeCleanup id
        · exact h.armings
      cases hcancel : RedisQueue.cancelPendingTaskScript o.queue d.taskId with
      | mk reply queue =>
        rw [hcancel] at hkeys
        have hqueue : Recorded { o with queue } :=
          ⟨h.armings, h.once, h.armed, hkeys ▸ h.marked, hkeys ▸ h.first⟩
        by_cases hdue : (decide (d.status = .cancelled) && d.published && !d.cleaned) = true
        · rw [if_pos hdue]
          cases reply with
          | ok value => exact hqueue.withDb hcleanup
          | refused reason => exact hqueue
          | error message => exact hqueue
        · rw [if_neg hdue]
          exact h
  | queueCall op hforeign =>
    have hkeys : (RedisQueue.step cfg o.queue op).dispatchKeys = o.queue.dispatchKeys := by
      refine RedisQueue.dispatchKeys_step cfg fun key t p hop => ?_
      rw [hop] at hforeign
      cases hforeign
    exact ⟨h.armings, h.once, h.armed, hkeys ▸ h.marked, hkeys ▸ h.first⟩
  | saveTasks tasks => exact h.withDb h.armings

theorem status_acknowledgePublication {db : Db} {d : RuntimeQueueDispatch}
    (hget : db.dispatches.get d.id = some d) (hpending : d.status = .pending) :
    ((acknowledgePublication db.open d.id).db.dispatches.get d.id).map
      RuntimeQueueDispatch.status = some .published := by
  have hget' : db.open.db.dispatches.get d.id = some d := hget
  have hrow := get_saveDispatch (s := db.open) (d := d)
    (r := { d with status := .published, published := true }) hget rfl d.id
  rw [if_pos rfl] at hrow
  simp only [acknowledgePublication, hget', hpending, if_true, hrow, Option.map_some]

end Records

/-- In a run whose arming calls bring no invalid generation and whose publications repeat
safely: every arming carries a key that no earlier one carried; only armed keys are delivered,
each once; and a publication that repeats a delivery marks the row published and adds nothing. -/
theorem generations_delivered_once (cfg : Config) (ops : List OutboxOp)
    (h : Guarded (Outbox.step cfg) (fun o op => o.guard op = true) .empty ops) :
    let o := exec (Outbox.step cfg) .empty ops
    (o.armings.Nodup ∧ none ∉ o.armings) ∧
    (o.deliveries.Nodup ∧ ∀ key ∈ o.deliveries, some key ∈ o.armings) ∧
    ∀ dispatch key, o.db.dispatches.get dispatch.id = some dispatch →
      dispatch.status = .pending → dispatchKey dispatch = some key → key ∈ o.deliveries →
      o.repeatsSafely dispatch = true →
      (o.publishCommitted cfg dispatch.id true).deliveries = o.deliveries ∧
      (o.publishCommitted cfg dispatch.id true).queue = o.queue ∧
      ((o.publishCommitted cfg dispatch.id true).db.dispatches.get dispatch.id).map
        RuntimeQueueDispatch.status = some .published := by
  intro o
  have ho : Recorded o := h.preserves (fun _ _ hr hg => hr.step hg) .empty
  refine ⟨⟨ho.armings.nodup, ho.armings.keyed⟩, ⟨ho.once, ho.armed⟩, ?_⟩
  intro d key hget hpending hkey hdelivered hsafe
  obtain ⟨generation, hgeneration, rfl⟩ := dispatchKey_eq_some.mp hkey
  have hrepeat := ho.repeated cfg (ho.armings.plain _ d hget) hgeneration hdelivered hsafe
  have hstep : o.publishCommitted cfg d.id true =
      { o with db := (acknowledgePublication o.db.open d.id).db } := by
    simp [Outbox.publishCommitted, hget, hpending, Outbox.publishRow, hrepeat]
  rw [hstep]
  exact ⟨rfl, rfl, status_acknowledgePublication hget hpending⟩

section Runs

def plainAmbient : Ambient := ⟨"now", fun _ => "dispatch"⟩

def retriedTask : ExecutionTask :=
  ⟨"task", "tenant", "mission", none, none, .queued, [], 0⟩

/-- A task is delivered and fails. After the commit of its retry a turn of `publish_due` comes
before the publication of the commit itself, and its acknowledgement is lost. -/
def lostRun : List OutboxOp :=
  [.admitTask plainAmbient (by simp [plainAmbient]) retriedTask false,
    .publishCommitted "dispatch" true, .queueCall (.claimNext "worker") rfl,
    .queueCall (.fail "task" "worker" "reason" "now") rfl,
    .saveTasks ⟨[retriedTask], by simp⟩,
    .retry plainAmbient (by simp [plainAmbient]) retriedTask, .publishDue "dispatch" false]

theorem generations_delivered_once_lost :
    let o := exec (Outbox.step ⟨"tenant", 30⟩) .empty lostRun
    (o.armings.Nodup ∧ none ∉ o.armings) ∧
    (o.deliveries.Nodup ∧ ∀ key ∈ o.deliveries, some key ∈ o.armings) ∧
    ∀ dispatch key, o.db.dispatches.get dispatch.id = some dispatch →
      dispatch.status = .pending → dispatchKey dispatch = some key → key ∈ o.deliveries →
      o.repeatsSafely dispatch = true →
      (o.publishCommitted ⟨"tenant", 30⟩ dispatch.id true).deliveries = o.deliveries ∧
      (o.publishCommitted ⟨"tenant", 30⟩ dispatch.id true).queue = o.queue ∧
      ((o.publishCommitted ⟨"tenant", 30⟩ dispatch.id true).db.dispatches.get dispatch.id).map
        RuntimeQueueDispatch.status = some .published :=
  generations_delivered_once ⟨"tenant", 30⟩ lostRun (by decide +kernel)

/-- A worker runs the task to completion. The publication of the commit then finds the row
pending and no entry of the task in the queue, and delivers the generation again. -/
theorem generation_delivered_twice :
    (exec (Outbox.step ⟨"tenant", 30⟩) .empty (lostRun ++
      [.queueCall (.claimNext "worker") rfl, .queueCall (.complete "task" "worker") rfl,
        .saveTasks ⟨[retriedTask.withStatus .completed], by simp⟩,
        .publishCommitted "dispatch" true])).deliveries =
      ["dispatch:retry:1", "dispatch:retry:1", "dispatch"] := by
  decide +kernel

end Runs

end Ajenda.Runtime
