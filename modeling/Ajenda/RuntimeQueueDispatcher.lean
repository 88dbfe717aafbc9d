import Ajenda.RuntimeState

/-!
# Admission of tasks to the queue

A `Session` is one database transaction: the rows as it sees them and the dispatches it will
publish after its commit. The functions are those of `RuntimeQueueDispatchService` that run
inside a transaction. What a call reads from outside, the time and the identifiers the
database draws, is its `Ambient`.
-/
namespace Ajenda.Runtime
open JsonValue KeyedRows

structure Session where
  db : Db
  intents : List String

structure Ambient where
  now : String
  dispatchId : String → String

/-- A call starts in a new session. -/
def Db.open (db : Db) : Session := ⟨db, []⟩

def Session.saveTask (s : Session) (task : ExecutionTask) : Session :=
  { s with db := { s.db with tasks := s.db.tasks.set task } }

def Session.saveMission (s : Session) (mission : Mission) : Session :=
  { s with db := { s.db with missions := s.db.missions.set mission } }

def Session.saveLease (s : Session) (lease : WorkerLease) : Session :=
  { s with db := { s.db with leases := s.db.leases.set lease } }

def Session.saveDispatch (s : Session) (dispatch : RuntimeQueueDispatch) : Session :=
  { s with db := { s.db with dispatches := s.db.dispatches.set dispatch } }

section Saved
variable {s : Session}

theorem get_saveTask {task u : ExecutionTask} (h : s.db.tasks.get task.id = some task)
    (hid : u.id = task.id) (k : String) : (s.saveTask u).db.tasks.get k =
      if k = task.id then some u else s.db.tasks.get k := Rows.get_set_of_get h hid k

theorem saveTask_row {task : ExecutionTask} (task' : ExecutionTask)
    (h : s.db.tasks.get task.id = some task) (hid : task'.id = task.id) :
    (s.saveTask task').db.tasks.get task'.id = some task' := by
  rw [get_saveTask h hid, if_pos hid]

theorem get_saveLease {lease l : WorkerLease} (h : s.db.leases.get lease.id = some lease)
    (hid : l.id = lease.id) (k : String) : (s.saveLease l).db.leases.get k =
      if k = lease.id then some l else s.db.leases.get k := Rows.get_set_of_get h hid k

theorem get_saveMission {mission m : Mission}
    (h : s.db.missions.get mission.id = some mission) (hid : m.id = mission.id)
    (k : String) : (s.saveMission m).db.missions.get k =
      if k = mission.id then some m else s.db.missions.get k := Rows.get_set_of_get h hid k

theorem get_saveDispatch {d r : RuntimeQueueDispatch} (h : s.db.dispatches.get d.id = some d)
    (hid : r.id = d.id) (k : String) : (s.saveDispatch r).db.dispatches.get k =
      if k = d.id then some r else s.db.dispatches.get k := Rows.get_set_of_get h hid k

end Saved

def Db.dispatchForTask (db : Db) (tenantId taskId : String) : Option RuntimeQueueDispatch :=
  db.dispatches.list.find? fun d => d.tenantId = tenantId ∧ d.taskId = taskId

/-- `list_for_mission`. -/
def Db.listForMission (db : Db) (missionId : String) : List ExecutionTask :=
  db.tasks.list.filter fun t => t.missionId = missionId

def retryGenerationKey : String := "_runtime_queue_retry_generation"

/-- `_retry_generation`. -/
def retryGeneration (payload : Fields) : Except Error ℕ :=
  match Fields.get payload retryGenerationKey with
  | none => .ok 0
  | some (.num (.finite q)) =>
      if q.den = 1 ∧ 0 ≤ q.num then .ok q.num.toNat
      else .error (.value "runtime queue dispatch has an invalid retry generation")
  | some _ => .error (.value "runtime queue dispatch has an invalid retry generation")

def natJson (n : ℕ) : Json := .num (.finite n)

/-- `_schedule_after_commit`. -/
def scheduleAfterCommit (s : Session) (dispatch : RuntimeQueueDispatch) : Session :=
  if dispatch.id ∈ s.intents then s else { s with intents := s.intents ++ [dispatch.id] }

/-- Insert a dispatch; the task of a dispatch is unique. -/
def addDispatch (s : Session) (dispatch : RuntimeQueueDispatch) : Except Error Session :=
  if s.db.dispatches.list.any fun d => d.taskId = dispatch.taskId then .error .integrity
  else
    match s.db.dispatches.insert dispatch with
    | none => .error .integrity
    | some dispatches => .ok { s with db := { s.db with dispatches } }

/-- `release_review_hold`. -/
def releaseReviewHold (s : Session) (task : ExecutionTask) : Except Error Session :=
  match s.db.dispatchForTask task.tenantId task.id with
  | none => .error (.value "reviewed task has no held runtime queue admission")
  | some dispatch =>
    if dispatch.status ≠ .heldReview then
      .error (.value "reviewed task has no held runtime queue admission")
    else
      let dispatch := { dispatch with status := .pending, payload := task.metadata }
      .ok (scheduleAfterCommit (s.saveDispatch dispatch) dispatch)

/-- `admit`; the flag says whether a dispatch was created. -/
def admitTask (amb : Ambient) (s : Session) (task : ExecutionTask) (heldForReview : Bool) :
    Except Error (Session × Bool) :=
  match s.db.dispatchForTask task.tenantId task.id with
  | some existing =>
    if !heldForReview && existing.status = .heldReview then do
      let s ← releaseReviewHold s task
      pure (s, false)
    else pure (s, false)
  | none => do
    let dispatch : RuntimeQueueDispatch :=
      { id := amb.dispatchId task.id, tenantId := task.tenantId, taskId := task.id,
        missionId := task.missionId, fleetId := task.fleetId, branchId := task.branchId,
        payload := task.metadata, status := if heldForReview then .heldReview else .pending,
        published := false, cleaned := false, createdAt := amb.now }
    let s ← addDispatch s dispatch
    pure (if heldForReview then s else scheduleAfterCommit s dispatch, true)

/-- `retry`: a new delivery generation of the task's dispatch. -/
def retry (amb : Ambient) (s : Session) (task : ExecutionTask) : Except Error Session :=
  match s.db.dispatchForTask task.tenantId task.id with
  | none => do
    let (s, _) ← admitTask amb s task false
    pure s
  | some dispatch => do
    let generation ← retryGeneration dispatch.payload
    let dispatch :=
      { dispatch with
        payload := Fields.set task.metadata retryGenerationKey (natJson (generation + 1)),
        status := .pending, published := false, cleaned := false }
    pure (scheduleAfterCommit (s.saveDispatch dispatch) dispatch)

/-- `cancel`. -/
def cancel (s : Session) (task : ExecutionTask) : Session :=
  match s.db.dispatchForTask task.tenantId task.id with
  | none => s
  | some dispatch =>
    if dispatch.status = .cancelled then s
    else
      s.saveDispatch { dispatch with
        status := .cancelled, cleaned := dispatch.cleaned || !dispatch.published }

/-- The commit after a dispatch was published. -/
def acknowledgePublication (s : Session) (dispatchId : String) : Session :=
  match s.db.dispatches.get dispatchId with
  | none => s
  | some dispatch =>
    if dispatch.status = .pending then
      s.saveDispatch { dispatch with status := .published, published := true }
    else s

/-- The turn of `publish_due` on a pending dispatch whose task is not queued any more. -/
def dropDueDispatch (s : Session) (dispatchId : String) : Session :=
  match s.db.dispatches.get dispatchId with
  | none => s
  | some dispatch =>
    let queued := match s.db.tasks.get dispatch.taskId with
      | none => false
      | some task => task.tenantId = dispatch.tenantId && task.status = .queued
    if dispatch.status = .pending && !queued then
      s.saveDispatch { dispatch with status := .cancelled, cleaned := !dispatch.published }
    else s

/-- The commit of `reconcile_cancelled` after the queue has dropped the payload. -/
def acknowledgeCleanup (s : Session) (dispatchId : String) : Session :=
  match s.db.dispatches.get dispatchId with
  | none => s
  | some dispatch =>
    if dispatch.status = .cancelled && dispatch.published && !dispatch.cleaned then
      s.saveDispatch { dispatch with cleaned := true }
    else s

end Ajenda.Runtime
