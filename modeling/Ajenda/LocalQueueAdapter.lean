import Ajenda.DeadLetterRoundTrip

/-!
# The local queue adapter

`LocalQueueAdapter` in memory: a deque of messages of all tenants, the claims by tenant and
task, the list of dead-letter envelopes and the set of idempotency keys. Each method is a
function from the state to its answer and the state it leaves.
-/
namespace Ajenda.LocalAdapter
open JsonValue FiniteTable
open RedisQueue (QueueMessage messageFields decodeMessage)

/-- A dead-letter envelope with the fields the methods read. -/
structure DeadLetter where
  taskId : String
  reason : String
  failedAt : String
  workerId : Option String
  payload : Fields

structure LocalQueue where
  queue : List QueueMessage
  claims : Table (String × String) (String × QueueMessage)
  deadLetter : List DeadLetter
  dispatchKeys : Table String Unit

def LocalQueue.empty : LocalQueue := ⟨[], ∅, [], ∅⟩

/-- `message.tenant_id == tenant_id and message.task_id == task_id`. -/
def matchesTask (tenantId taskId : String) (m : QueueMessage) : Bool :=
  m.tenantId = tenantId && m.taskId = taskId

/-- The envelope is for the task and its payload for the tenant. -/
def DeadLetter.isFor (tenantId taskId : String) (e : DeadLetter) : Bool :=
  e.taskId = taskId && RedisQueue.textField e.payload "tenant_id" = some tenantId

/-- `_dead_letter_envelope`. -/
def deadLetterEnvelope (tenantId taskId reason now : String) (workerId : Option String)
    (message : Option QueueMessage) : DeadLetter where
  taskId := (message.map QueueMessage.taskId).getD taskId
  reason
  failedAt := now
  workerId
  payload := match message with
    | some m => messageFields m
    | none => [("tenant_id", .str tenantId), ("task_id", .str taskId),
        ("source", .str "runtime_recovery_without_processing_payload")]

section Methods
variable (l : LocalQueue) (tenantId taskId workerId : String)

def LocalQueue.append (m : QueueMessage) : LocalQueue := { l with queue := l.queue ++ [m] }

def LocalQueue.bury (e : DeadLetter) : LocalQueue := { l with deadLetter := l.deadLetter ++ [e] }

def LocalQueue.popClaim : LocalQueue := { l with claims := l.claims.del (tenantId, taskId) }

/-- `enqueue_task`. -/
def enqueueTask (m : QueueMessage) : Bool × LocalQueue := (true, l.append m)

/-- `enqueue_task_idempotent`. -/
def enqueueTaskIdempotent (m : QueueMessage) (idempotencyKey : String) : Bool × LocalQueue :=
  if l.dispatchKeys.has idempotencyKey then (true, l)
  else (true, { l.append m with dispatchKeys := l.dispatchKeys.put idempotencyKey () })

/-- `cancel_task`. -/
def cancelTask : Bool × LocalQueue :=
  if l.claims.has (tenantId, taskId) then (false, l)
  else (true, { l with queue := l.queue.filter fun m => !matchesTask tenantId taskId m })

/-- The loop of `claim_task`: the deque is `rest ++ rotated`, and each message of `rest` is
popped once. -/
def claimLoop : (rest rotated : List QueueMessage) → Option QueueMessage × List QueueMessage
  | [], rotated => (none, rotated)
  | m :: rest, rotated =>
    if m.tenantId ≠ tenantId then claimLoop rest (rotated ++ [m])
    else if l.claims.has (tenantId, m.taskId) then claimLoop rest (rotated ++ [m])
    else (some m, rest ++ rotated)

/-- `claim_task`. -/
def claimTask : Option QueueMessage × LocalQueue :=
  match claimLoop l tenantId l.queue [] with
  | (none, queue) => (none, { l with queue })
  | (some m, queue) =>
    (some m, { l with queue, claims := l.claims.put (tenantId, m.taskId) (workerId, m) })

/-- `claim_existing_task`. -/
def claimExistingTask : Bool × LocalQueue :=
  match l.claims.get (tenantId, taskId) with
  | some (owner, _) => (owner = workerId, l)
  | none =>
    match l.queue.find? (matchesTask tenantId taskId) with
    | none => (false, l)
    | some m =>
      (true, { l with
        queue := l.queue.eraseP (matchesTask tenantId taskId)
        claims := l.claims.put (tenantId, taskId) (workerId, m) })

/-- `claim[0] if claim is not None else None`. -/
def LocalQueue.owner : Option String := (l.claims.get (tenantId, taskId)).map Prod.fst

/-- `heartbeat`. -/
def heartbeat : Bool × LocalQueue := (l.owner tenantId taskId = some workerId, l)

/-- `complete_task`. -/
def completeTask : Bool × LocalQueue :=
  if l.owner tenantId taskId ≠ some workerId then (false, l)
  else (true, l.popClaim tenantId taskId)

/-- `fail_task`. -/
def failTask (reason now : String) : Bool × LocalQueue :=
  match l.claims.get (tenantId, taskId) with
  | none => (false, l)
  | some (owner, m) =>
    if owner ≠ workerId then (false, l)
    else (true, (l.popClaim tenantId taskId).bury
      (deadLetterEnvelope tenantId taskId reason now (some workerId) (some m)))

/-- `release_lease`. -/
def releaseLease : Bool × LocalQueue :=
  match l.claims.get (tenantId, taskId) with
  | none => (false, l)
  | some (owner, m) =>
    if owner ≠ workerId then (false, l)
    else (true, (l.popClaim tenantId taskId).append m)

/-- The queue without the pending messages of the task. -/
def LocalQueue.withoutPending : LocalQueue :=
  { l with queue := l.queue.filter fun m => !matchesTask tenantId taskId m }

/-- `recover_task_for_retry`. -/
def recoverTaskForRetry : Bool × LocalQueue :=
  let claim := l.claims.get (tenantId, taskId)
  if (claim.map Prod.fst).any (· ≠ workerId) then (false, l)
  else
    let pending := l.queue.filter (matchesTask tenantId taskId)
    let left := (l.popClaim tenantId taskId).withoutPending tenantId taskId
    match pending.head?, claim with
    | some m, _ => (true, left.append m)
    | none, some (_, m) => (true, left.append m)
    | none, none => (false, left)

/-- `move_to_dead_letter`. -/
def moveToDeadLetter (reason now : String) : Bool × LocalQueue :=
  if l.claims.has (tenantId, taskId) then (false, l)
  else
    (true, (l.withoutPending tenantId taskId).bury (deadLetterEnvelope tenantId taskId reason now
      none (l.queue.find? (matchesTask tenantId taskId))))

/-- `move_owned_to_dead_letter`. -/
def moveOwnedToDeadLetter (reason now : String) : Bool × LocalQueue :=
  match l.claims.get (tenantId, taskId) with
  | some (owner, m) =>
    if owner ≠ workerId then (false, l)
    else (true, (l.popClaim tenantId taskId).bury
      (deadLetterEnvelope tenantId taskId reason now (some workerId) (some m)))
  | none =>
    (true, (l.withoutPending tenantId taskId).bury (deadLetterEnvelope tenantId taskId reason now
      (some workerId) (l.queue.find? (matchesTask tenantId taskId))))

/-- `_message_from_payload`; `none` when it raises. -/
def messageFromPayload (payload : Fields) : Option QueueMessage :=
  decodeMessage (.json (.obj payload))

/-- `retry_dead_letter`. -/
def retryDeadLetter : Bool × LocalQueue :=
  if l.queue.any (matchesTask tenantId taskId) then (false, l)
  else if l.claims.has (tenantId, taskId) then (false, l)
  else
    match l.deadLetter.find? (DeadLetter.isFor tenantId taskId) with
    | none => (false, l)
    | some e =>
      match messageFromPayload e.payload with
      | none => (false, l)
      | some m =>
        (true, { l.append m with
          deadLetter := l.deadLetter.eraseP (DeadLetter.isFor tenantId taskId) })

end Methods
end Ajenda.LocalAdapter
