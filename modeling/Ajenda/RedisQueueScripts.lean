import Ajenda.FiniteTable
import Ajenda.LuaCjson

/-!
# The Redis queue: one tenant's keys and the atomic scripts

`Store` holds the keys of one migrated tenant and each script is a function from the store
to its reply and the store it leaves. A script that raises in the middle keeps the writes
it has already made, as Redis does not roll a script back. Sequence numbers are scores, so
a score is exact as long as it is below `2 ^ 53`.
-/
namespace Ajenda.RedisQueue
open JsonValue FiniteTable LuaCjson

/-- `message` of `QueueMessage`; identifiers and times are kept in their text form. -/
structure QueueMessage where
  tenantId : String
  taskId : String
  missionId : String
  fleetId : Option String
  branchId : Option String
  payload : Fields
  enqueuedAt : String
  deriving DecidableEq

structure Store where
  pendingOrder : RankedSet
  pendingPayloads : Table String Payload
  processingPayloads : Table String Payload
  deadOrder : RankedSet
  deadPayloads : Table String Payload
  sequence : ℕ
  leases : Table String String
  dispatchKeys : Table String Unit

/-- A migrated tenant without any queue entry. -/
def Store.empty : Store := ⟨∅, ∅, ∅, ∅, ∅, 0, ∅, ∅⟩

/-- What `EVAL` answers: `{1, value}`, `{0, reason}` or an error reply. -/
inductive Reply (α : Type)
  | ok (value : α)
  | refused (reason : String)
  | error (message : String)
  deriving DecidableEq

def optionalText : Option String → Json
  | some s => .str s
  | none => .null

/-- `_encode_message`. -/
def encodeMessage (m : QueueMessage) : Payload :=
  .json <| .obj [
    ("branch_id", optionalText m.branchId),
    ("enqueued_at", .str m.enqueuedAt),
    ("fleet_id", optionalText m.fleetId),
    ("mission_id", .str m.missionId),
    ("payload", .obj m.payload),
    ("task_id", .str m.taskId),
    ("tenant_id", .str m.tenantId)]

def textField (fs : Fields) (k : String) : Option String :=
  match fs.get k with
  | some (.str s) => some s
  | _ => none

/-- `str | None`: a missing or falsy field is `None`. -/
def optionalTextField (fs : Fields) (k : String) : Option (Option String) :=
  match fs.get k with
  | none => some none
  | some v => if v.truthy then (match v with | .str s => some (some s) | _ => none) else some none

/-- `_decode_message`: `none` when it raises. -/
def decodeMessage : Payload → Option QueueMessage
  | .json (.obj data) => do
      let tenantId ← textField data "tenant_id"
      let taskId ← textField data "task_id"
      let missionId ← textField data "mission_id"
      let fleetId ← optionalTextField data "fleet_id"
      let branchId ← optionalTextField data "branch_id"
      let payload ← match Fields.get data "payload" with
        | none => some []
        | some (.obj fs) => some fs
        | some _ => none
      let enqueuedAt ← textField data "enqueued_at"
      some ⟨tenantId, taskId, missionId, fleetId, branchId, payload, enqueuedAt⟩
  | _ => none

/-- `INCR`, `HSET` and `ZADD` on the pending keys. -/
def Store.pushPending (s : Store) (taskId : String) (payload : Payload) : Store :=
  { s with
    sequence := s.sequence + 1
    pendingPayloads := s.pendingPayloads.put taskId payload
    pendingOrder := s.pendingOrder.put taskId (s.sequence + 1) }

/-- `INCR`, `HSET` and `ZADD` on the dead-letter keys. -/
def Store.pushDead (s : Store) (taskId : String) (envelope : Payload) : Store :=
  { s with
    sequence := s.sequence + 1
    deadPayloads := s.deadPayloads.put taskId envelope
    deadOrder := s.deadOrder.put taskId (s.sequence + 1) }

/-- `ZREM` and `HDEL` on the pending keys. -/
def Store.dropPending (s : Store) (taskId : String) : Store :=
  { s with
    pendingOrder := s.pendingOrder.del taskId
    pendingPayloads := s.pendingPayloads.del taskId }

/-- `HDEL` and `ZREM` on the dead-letter keys. -/
def Store.dropDead (s : Store) (taskId : String) : Store :=
  { s with
    deadPayloads := s.deadPayloads.del taskId
    deadOrder := s.deadOrder.del taskId }

def Store.dropProcessing (s : Store) (taskId : String) : Store :=
  { s with processingPayloads := s.processingPayloads.del taskId }

def Store.dropLease (s : Store) (taskId : String) : Store :=
  { s with leases := s.leases.del taskId }

/-- Move a pending payload to processing; `SET … EX` then raises on a time to live that is
not positive, and the moved payload is left without a lease. -/
def Store.moveToProcessing (s : Store) (taskId : String) (payload : Payload) : Store :=
  let s := s.dropPending taskId
  { s with processingPayloads := s.processingPayloads.put taskId payload }

def invalidExpire : String := "ERR invalid expire time in 'set' command"

/-- `_ENQUEUE_SCRIPT`. -/
def enqueueScript (s : Store) (taskId : String) (payload : Payload) : Reply String × Store :=
  if s.processingPayloads.has taskId then (.refused "task already processing", s)
  else if s.pendingPayloads.has taskId then (.refused "task already pending", s)
  else (.ok "published", s.pushPending taskId payload)

/-- `_IDEMPOTENT_ENQUEUE_SCRIPT`. -/
def idempotentEnqueueScript (s : Store) (idempotencyKey taskId : String) (payload : Payload) :
    Reply String × Store :=
  if s.dispatchKeys.has idempotencyKey then (.ok "already_published", s)
  else if s.processingPayloads.has taskId then (.refused "task already processing", s)
  else if s.pendingPayloads.has taskId then (.refused "task already pending", s)
  else
    let s := s.pushPending taskId payload
    (.ok "published", { s with dispatchKeys := s.dispatchKeys.put idempotencyKey () })

/-- `_CANCEL_PENDING_TASK_SCRIPT`. -/
def cancelPendingTaskScript (s : Store) (taskId : String) : Reply String × Store :=
  if s.processingPayloads.has taskId then (.refused "task is processing with an active owner", s)
  else (.ok "cancelled", s.dropPending taskId)

/-- `_CLAIM_NEXT_TASK_SCRIPT`. -/
def claimNextTaskScript (s : Store) (workerId : String) (ttlSeconds : ℤ) :
    Reply Payload × Store :=
  match s.pendingOrder.first with
  | none => (.refused "empty", s)
  | some taskId =>
    match s.pendingPayloads.get taskId with
    | none => (.refused "pending index is missing payload", s)
    | some payload =>
      if s.leases.has taskId then (.refused "task already claimed by different worker", s)
      else
        let s := s.moveToProcessing taskId payload
        if 0 < ttlSeconds then
          (.ok payload, { s with leases := s.leases.put taskId workerId })
        else (.error invalidExpire, s)

/-- `EXPIRE` deletes the key when the time to live is not positive. -/
def Store.expireLease (s : Store) (taskId : String) (ttlSeconds : ℤ) : Store :=
  if 0 < ttlSeconds then s else s.dropLease taskId

/-- `_CLAIM_EXISTING_TASK_SCRIPT`. -/
def claimExistingTaskScript (s : Store) (taskId workerId : String) (ttlSeconds : ℤ) :
    Reply String × Store :=
  match s.processingPayloads.get taskId with
  | some _ =>
    match s.leases.get taskId with
    | none => (.refused "processing payload has no worker owner", s)
    | some owner =>
      if owner ≠ workerId then (.refused "task already claimed by different worker", s)
      else (.ok "ok", s.expireLease taskId ttlSeconds)
  | none =>
    match s.pendingPayloads.get taskId with
    | none => (.refused "task not found in pending or processing queue", s)
    | some pendingPayload =>
      if ∃ owner, s.leases.get taskId = some owner ∧ owner ≠ workerId then
        (.refused "task already claimed by different worker", s)
      else
        let s := s.moveToProcessing taskId pendingPayload
        if 0 < ttlSeconds then
          (.ok "ok", { s with leases := s.leases.put taskId workerId })
        else (.error invalidExpire, s)

/-- `_HEARTBEAT_OWNER_SCRIPT`. -/
def heartbeatOwnerScript (s : Store) (taskId workerId : String) (ttlSeconds : ℤ) :
    Reply String × Store :=
  match s.leases.get taskId with
  | none => (.refused "lease owner missing", s)
  | some owner =>
    if owner ≠ workerId then (.refused "worker does not own claim", s)
    else (.ok "ok", s.expireLease taskId ttlSeconds)

/-- `_COMPLETE_OWNER_SCRIPT`. -/
def completeOwnerScript (s : Store) (taskId workerId : String) : Reply String × Store :=
  match s.leases.get taskId with
  | none => (.refused "lease owner missing", s)
  | some owner =>
    if owner ≠ workerId then (.refused "worker does not own claim", s)
    else if s.processingPayloads.has taskId then
      (.ok "ok", (s.dropProcessing taskId).dropLease taskId)
    else (.refused "task not found in processing queue", s)

def isTable : Json → Bool
  | .arr _ | .obj _ => true
  | _ => false

/-- `cjson.decode` with the check that the result is a table. -/
def decodeTable (raw : Payload) : Option Json := (decode raw).filter isTable

/-- The envelope `_FAIL_OWNER_SCRIPT` builds. -/
def failEnvelope (taskId workerId reason failedAt : String) (payload : Json) : Json :=
  .obj [("task_id", .str taskId), ("worker_id", .str workerId), ("reason", .str reason),
    ("failed_at", .str failedAt), ("payload", payload)]

def cannotSerialise : String := "Cannot serialise"

/-- `_FAIL_OWNER_SCRIPT`; the envelope is encoded before the first write. -/
def failOwnerScript (s : Store) (taskId workerId reason failedAt : String) :
    Reply String × Store :=
  match s.leases.get taskId with
  | none => (.refused "lease owner missing", s)
  | some owner =>
    if owner ≠ workerId then (.refused "worker does not own claim", s)
    else
      match s.processingPayloads.get taskId with
      | none => (.refused "task not found in processing queue", s)
      | some raw =>
        match decodeTable raw with
        | none => (.refused "processing payload is corrupt", s)
        | some payload =>
          match encode (failEnvelope taskId workerId reason failedAt payload) with
          | none => (.error cannotSerialise, s)
          | some envelope =>
            (.ok "ok", ((s.dropProcessing taskId).pushDead taskId envelope).dropLease taskId)

/-- `_RELEASE_OWNER_SCRIPT`. -/
def releaseOwnerScript (s : Store) (taskId workerId : String) : Reply String × Store :=
  match s.leases.get taskId with
  | none => (.refused "lease owner missing", s)
  | some owner =>
    if owner ≠ workerId then (.refused "worker does not own claim", s)
    else
      match s.processingPayloads.get taskId with
      | none => (.refused "task not found in processing queue", s)
      | some payload =>
        (.ok "ok", ((s.dropProcessing taskId).pushPending taskId payload).dropLease taskId)

/-- `_RECOVER_OWNER_SCRIPT`. -/
def recoverOwnerScript (s : Store) (taskId workerId : String) : Reply String × Store :=
  if ∃ owner, s.leases.get taskId = some owner ∧ owner ≠ workerId then
    (.refused "worker does not own claim", s)
  else
    match s.processingPayloads.get taskId, s.pendingPayloads.get taskId with
    | some _, some _ => (.refused "task exists in both pending and processing queues", s)
    | none, none => (.refused "task not found in processing or pending queue", s)
    | some payload, none | none, some payload =>
      (.ok "ok", ((s.dropProcessing taskId).pushPending taskId payload).dropLease taskId)

/-- The payload `_DEAD_LETTER_SCRIPT` substitutes when the task has none. -/
def syntheticPayload (tenantId taskId : String) : Json :=
  .obj [("tenant_id", .str tenantId), ("task_id", .str taskId),
    ("source", .str "runtime_recovery_without_processing_payload")]

/-- The envelope `_DEAD_LETTER_SCRIPT` builds; an empty owner stands for no owner. -/
def deadLetterEnvelope (taskId expectedOwner reason movedAt : String) (payload : Json) : Json :=
  .obj <| [("task_id", .str taskId), ("reason", .str reason), ("moved_at", .str movedAt),
    ("payload", payload)] ++ if expectedOwner = "" then [] else [("worker_id", .str expectedOwner)]

/-- The guard of `_DEAD_LETTER_SCRIPT` on the lease key. -/
def deadLetterDenied (s : Store) (taskId expectedOwner : String) : Option String :=
  match s.leases.get taskId with
  | none => none
  | some owner =>
    if expectedOwner = "" then some "active worker owns claim"
    else if owner ≠ expectedOwner then some "worker does not own claim"
    else none

/-- The payload `_DEAD_LETTER_SCRIPT` puts into the envelope, or the reason it refuses. -/
def deadLetterPayload (tenantId taskId : String) (processing pending : Option Payload) :
    Except String Json :=
  match processing, pending with
  | some _, some _ => .error "task exists in both pending and processing queues"
  | none, none => .ok (syntheticPayload tenantId taskId)
  | some raw, none | none, some raw =>
    match decodeTable raw with
    | none => .error "queue payload is corrupt"
    | some payload => .ok payload

/-- `_DEAD_LETTER_SCRIPT`; the envelope is encoded after the task has left its stores, so
an encoding error leaves it nowhere and its lease in place. -/
def deadLetterScript (s : Store) (tenantId taskId expectedOwner reason movedAt : String) :
    Reply String × Store :=
  match deadLetterDenied s taskId expectedOwner with
  | some denied => (.refused denied, s)
  | none =>
    match deadLetterPayload tenantId taskId (s.processingPayloads.get taskId)
      (s.pendingPayloads.get taskId) with
    | .error refusal => (.refused refusal, s)
    | .ok payload =>
      let left := (s.dropProcessing taskId).dropPending taskId
      match encode (deadLetterEnvelope taskId expectedOwner reason movedAt payload) with
      | none => (.error cannotSerialise, { left with sequence := left.sequence + 1 })
      | some envelope => (.ok "ok", (left.pushDead taskId envelope).dropLease taskId)

/-- `tostring` on a decoded value; a table prints as its address. -/
def tostring : Json → Option String
  | .str s => some s
  | .bool b => some (if b then "true" else "false")
  | .null => some "userdata: (nil)"
  | .num n => some (numberText n)
  | .arr _ | .obj _ => none
where
  numberText : JsonNumber → String
    | .nan => "nan"
    | .infinity negative => if negative then "-inf" else "inf"
    | .finite q => decimalText q
  /-- `%.14g`. -/
  decimalText (q : ℚ) : String :=
    if q = 0 then "0"
    else
      let r := DoubleRounding.toDigits 14 q
      let n := r.num.natAbs
      let e := DoubleRounding.floorLog 10 n r.den
      let digits := (toString (DoubleRounding.roundUnits 10 n r.den (e - 13))).toList
      let trim (ds : List Char) := (ds.reverse.dropWhile (· = '0')).reverse
      let point (ds : List Char) := if ds = [] then [] else '.' :: ds
      let body :=
        if e < -4 ∨ 14 ≤ e then
          let exponent := toString e.natAbs
          let padded := if e.natAbs < 10 then "0" ++ exponent else exponent
          String.ofList (digits.take 1 ++ point (trim (digits.drop 1))) ++
            (if e < 0 then "e-" else "e+") ++ padded
        else if e < 0 then
          String.ofList ('0' :: point (List.replicate (e.natAbs - 1) '0' ++ trim digits))
        else
          String.ofList (digits.take (e.natAbs + 1) ++ point (trim (digits.drop (e.natAbs + 1))))
      if q < 0 then "-" ++ body else body

/-- The checks of `_RETRY_DEAD_LETTER_SCRIPT` on a stored envelope: the payload to publish
again, or the reason it is refused. -/
def retryPayload (tenantId taskId : String) (raw : Payload) : Except String Json :=
  match decodeTable raw with
  | none => .error "dead-letter payload is corrupt: invalid envelope"
  | some envelope =>
    match (envelope.field "payload").filter isTable with
    | none => .error "dead-letter payload is corrupt: payload is not an object"
    | some payload =>
      if (payload.field "tenant_id").bind tostring ≠ some tenantId then
        .error "dead-letter payload is corrupt: tenant_id mismatch"
      else if (payload.field "task_id").bind tostring ≠ some taskId then
        .error "dead-letter payload is corrupt: task_id mismatch"
      else if (payload.field "mission_id").isNone then
        .error "dead-letter payload is corrupt: missing mission_id"
      else if ((payload.field "payload").filter isTable).isNone then
        .error "dead-letter payload is corrupt: missing payload"
      else if (payload.field "enqueued_at").isNone then
        .error "dead-letter payload is corrupt: missing enqueued_at"
      else .ok payload

/-- `_RETRY_DEAD_LETTER_SCRIPT`; the payload is encoded after the entry has been removed. -/
def retryDeadLetterScript (s : Store) (tenantId taskId : String) : Reply String × Store :=
  if s.pendingPayloads.has taskId then (.refused "task already pending", s)
  else if s.processingPayloads.has taskId then (.refused "task already processing", s)
  else
    match s.deadPayloads.get taskId with
    | none => (.refused "dead-letter entry not found", s)
    | some raw =>
      match retryPayload tenantId taskId raw with
      | .error reason => (.refused reason, s)
      | .ok payload =>
        let s := s.dropDead taskId
        match encode payload with
        | none => (.error cannotSerialise, { s with sequence := s.sequence + 1 })
        | some raw => (.ok "ok", s.pushPending taskId raw)

end Ajenda.RedisQueue
