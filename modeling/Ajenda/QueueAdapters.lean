import Ajenda.ColonTexts
import Ajenda.LocalQueueAdapter
import Ajenda.RankedList

/-!
# The two queue adapters side by side

Every call of `QueueAdapter` is made to a `LocalQueueAdapter` and to a `RedisQueueAdapter`
that started empty, while no lease key expires. The Redis side is one store for each tenant,
which is what Redis holds as long as no two tenants have used the same Redis key.
-/
namespace Ajenda.QueueAdapters
open JsonValue FiniteTable LuaCjson TransitionSystem
open RedisQueue (QueueMessage Store encodeMessage decodeMessage Reply)
open LocalAdapter (LocalQueue)

/-- The identifiers of an enqueued message are texts of UUIDs. -/
structure Message where
  message : QueueMessage
  identified : message.Identified

inductive Call
  | enqueueTask (m : Message)
  | enqueueTaskIdempotent (m : Message) (idempotencyKey : String)
  | cancelTask (tenantId taskId : String)
  | claimTask (tenantId workerId : String)
  | claimExistingTask (tenantId taskId workerId : String)
  | heartbeat (tenantId taskId workerId : String)
  | completeTask (tenantId taskId workerId : String)
  | failTask (tenantId taskId workerId reason now : String)
  | releaseLease (tenantId taskId workerId : String)
  | recoverTaskForRetry (tenantId taskId workerId : String)
  | moveToDeadLetter (tenantId taskId reason now : String)
  | moveOwnedToDeadLetter (tenantId taskId workerId reason now : String)
  | retryDeadLetter (tenantId taskId : String)

/-- What a caller sees: the `ok` of a result, the task a claim yields, or an exception. -/
inductive Answer
  | result (ok : Bool)
  | claimed (taskId : Option String)
  | raised
  deriving DecidableEq

def Call.tenantId : Call → String
  | .enqueueTask m | .enqueueTaskIdempotent m _ => m.message.tenantId
  | .cancelTask x _ | .claimTask x _ | .claimExistingTask x _ _ | .heartbeat x _ _
  | .completeTask x _ _ | .failTask x _ _ _ _ | .releaseLease x _ _
  | .recoverTaskForRetry x _ _ | .moveToDeadLetter x _ _ _ | .moveOwnedToDeadLetter x _ _ _ _
  | .retryDeadLetter x _ => x

/-- The task a call names. -/
def Call.taskId : Call → Option String
  | .enqueueTask m | .enqueueTaskIdempotent m _ => some m.message.taskId
  | .claimTask _ _ => none
  | .cancelTask _ t | .claimExistingTask _ t _ | .heartbeat _ t _ | .completeTask _ t _
  | .failTask _ t _ _ _ | .releaseLease _ t _ | .recoverTaskForRetry _ t _
  | .moveToDeadLetter _ t _ _ | .moveOwnedToDeadLetter _ t _ _ _ | .retryDeadLetter _ t => some t

/-- The keys of one tenant. -/
inductive QueueKey
  | legacyPending
  | legacyProcessing
  | legacyDeadLetter
  | pending
  | pendingPayloads
  | processing
  | deadLetter
  | deadLetterPayloads
  | sequence
  | schema
  | dispatch (idempotencyKey : String)
  | lease (taskId : String)
  deriving DecidableEq

def QueueKey.name : QueueKey → String
  | .legacyPending => "pending"
  | .legacyProcessing => "processing"
  | .legacyDeadLetter => "dead_letter"
  | .pending => "v2:pending-order"
  | .pendingPayloads => "v2:pending-payloads"
  | .processing => "v2:processing-payloads"
  | .deadLetter => "v2:dead-letter-order"
  | .deadLetterPayloads => "v2:dead-letter-payloads"
  | .sequence => "v2:sequence"
  | .schema => "v2:schema"
  | .dispatch idempotencyKey => "dispatch:" ++ idempotencyKey
  | .lease taskId => "lease:" ++ taskId

/-- The key as Redis sees it. -/
def redisKey (tenantId : String) (key : QueueKey) : String :=
  "ajenda:queue:" ++ tenantId ++ ":" ++ key.name

/-- The keys `_ensure_queue_schema` hands to its script. -/
def schemaKeys : List QueueKey :=
  [.legacyPending, .legacyProcessing, .legacyDeadLetter, .pending, .pendingPayloads, .processing,
    .deadLetter, .deadLetterPayloads, .sequence, .schema]

/-- The keys a call uses. `claim_task` finds a task that an earlier call has named. -/
def Call.keys (call : Call) : List QueueKey :=
  let named := call.taskId.toList.map .lease
  match call with
  | .enqueueTaskIdempotent _ k => .dispatch k :: named ++ schemaKeys
  | _ => named ++ schemaKeys

abbrev RedisQueues := String → Store

section Local
variable (l : LocalQueue)

def answered (r : Bool × LocalQueue) : Answer × LocalQueue := (.result r.1, r.2)

def localCall : Call → Answer × LocalQueue
  | .enqueueTask m => answered (LocalAdapter.enqueueTask l m.message)
  | .enqueueTaskIdempotent m k => answered (LocalAdapter.enqueueTaskIdempotent l m.message k)
  | .cancelTask tenantId t => answered (LocalAdapter.cancelTask l tenantId t)
  | .claimTask tenantId w =>
      let (m, l) := LocalAdapter.claimTask l tenantId w
      (.claimed (m.map QueueMessage.taskId), l)
  | .claimExistingTask tenantId t w => answered (LocalAdapter.claimExistingTask l tenantId t w)
  | .heartbeat tenantId t w => answered (LocalAdapter.heartbeat l tenantId t w)
  | .completeTask tenantId t w => answered (LocalAdapter.completeTask l tenantId t w)
  | .failTask tenantId t w reason now => answered (LocalAdapter.failTask l tenantId t w reason now)
  | .releaseLease tenantId t w => answered (LocalAdapter.releaseLease l tenantId t w)
  | .recoverTaskForRetry tenantId t w =>
      answered (LocalAdapter.recoverTaskForRetry l tenantId t w)
  | .moveToDeadLetter tenantId t reason now =>
      answered (LocalAdapter.moveToDeadLetter l tenantId t reason now)
  | .moveOwnedToDeadLetter tenantId t w reason now =>
      answered (LocalAdapter.moveOwnedToDeadLetter l tenantId t w reason now)
  | .retryDeadLetter tenantId t => answered (LocalAdapter.retryDeadLetter l tenantId t)

end Local

section Redis
variable (ttl : ℤ) (q : RedisQueues)

/-- Write the store of a tenant and answer as `_operation_result` does. -/
def replied {α : Type} (tenantId : String) (r : Reply α × Store) : Answer × RedisQueues :=
  (.result r.1.isOk, Function.update q tenantId r.2)

/-- The answer of `claim_task` of the Redis adapter. -/
def claimAnswer : Reply Payload → Answer
  | .ok raw =>
    match decodeMessage raw with
    | some m => .claimed (some m.taskId)
    | none => .raised
  | .refused reason => if reason = "empty" then .claimed none else .raised
  | .error _ => .raised

def claimReply (tenantId : String) (r : Reply Payload × Store) : Answer × RedisQueues :=
  (claimAnswer r.1, Function.update q tenantId r.2)

/-- The script of a method, after `_ensure_queue_schema`. -/
def redisScript : Call → Answer × RedisQueues
  | .enqueueTask m =>
      replied q m.message.tenantId (RedisQueue.enqueueScript (q m.message.tenantId)
        m.message.taskId (encodeMessage m.message))
  | .enqueueTaskIdempotent m k =>
      replied q m.message.tenantId (RedisQueue.idempotentEnqueueScript (q m.message.tenantId) k
        m.message.taskId (encodeMessage m.message))
  | .cancelTask tenantId t =>
      replied q tenantId (RedisQueue.cancelPendingTaskScript (q tenantId) t)
  | .claimTask tenantId w =>
      claimReply q tenantId (RedisQueue.claimNextTaskScript (q tenantId) w ttl)
  | .claimExistingTask tenantId t w =>
      replied q tenantId (RedisQueue.claimExistingTaskScript (q tenantId) t w ttl)
  | .heartbeat tenantId t w =>
      replied q tenantId (RedisQueue.heartbeatOwnerScript (q tenantId) t w ttl)
  | .completeTask tenantId t w =>
      replied q tenantId (RedisQueue.completeOwnerScript (q tenantId) t w)
  | .failTask tenantId t w reason now =>
      replied q tenantId (RedisQueue.failOwnerScript (q tenantId) t w reason now)
  | .releaseLease tenantId t w =>
      replied q tenantId (RedisQueue.releaseOwnerScript (q tenantId) t w)
  | .recoverTaskForRetry tenantId t w =>
      replied q tenantId (RedisQueue.recoverOwnerScript (q tenantId) t w)
  | .moveToDeadLetter tenantId t reason now =>
      replied q tenantId (RedisQueue.deadLetterScript (q tenantId) tenantId t "" reason now)
  | .moveOwnedToDeadLetter tenantId t w reason now =>
      replied q tenantId (RedisQueue.deadLetterScript (q tenantId) tenantId t w reason now)
  | .retryDeadLetter tenantId t =>
      replied q tenantId (RedisQueue.retryDeadLetterScript (q tenantId) tenantId t)

mutual
/-- `json.dumps` raises on an `int` of more than 4300 digits. -/
def digitsFit : Json → Bool
  | .num (.finite q) => q.num.natAbs < 10 ^ 4300
  | .arr xs => digitsFitItems xs
  | .obj fs => digitsFitFields fs
  | _ => true
def digitsFitItems : List Json → Bool
  | [] => true
  | x :: xs => digitsFit x && digitsFitItems xs
def digitsFitFields : Fields → Bool
  | [] => true
  | (_, x) :: fs => digitsFit x && digitsFitFields fs
end

/-- `json` follows `levels` levels of nesting; what `json.dumps` writes, `json.loads` reads. -/
def dumpable (levels : ℕ) (doc : Json) : Bool := doc.depth ≤ levels && digitsFit doc

/-- `_encode_message` writes the message of the call, if there is one. -/
def Call.dumpable (levels : ℕ) : Call → Bool
  | .enqueueTask m | .enqueueTaskIdempotent m _ =>
      QueueAdapters.dumpable levels (RedisQueue.messageDoc m.message)
  | _ => true

/-- An exception of `_encode_message` is the refusal of both enqueue methods. -/
def redisCall (levels : ℕ) (call : Call) : Answer × RedisQueues :=
  if call.dumpable levels then redisScript ttl q call else (.result false, q)

end Redis

/-- Both adapters, with the answers they have given so far, the latest first, and the keys that
each tenant has used. -/
structure Adapters where
  here : LocalQueue
  redis : RedisQueues
  answers : List (Answer × Answer)
  used : List (String × QueueKey)

def Adapters.empty : Adapters := ⟨.empty, fun _ => .empty, [], []⟩

def Adapters.step (levels : ℕ) (ttl : ℤ) (a : Adapters) (call : Call) : Adapters where
  here := (localCall a.here call).2
  redis := (redisCall ttl a.redis levels call).2
  answers := ((localCall a.here call).1, (redisCall ttl a.redis levels call).1) :: a.answers
  used := call.keys.map (call.tenantId, ·) ++ a.used

/-- No key of the call is a key that another tenant has used. -/
def Adapters.apart (a : Adapters) (call : Call) : Bool :=
  a.used.all fun u => u.1 = call.tenantId ||
    call.keys.all fun key => redisKey call.tenantId key ≠ redisKey u.1 u.2

theorem QueueKey.name_inj {key key' : QueueKey} (h : key.name = key'.name) : key = key' := by
  have hlist := congrArg String.toList h
  cases key <;> cases key' <;> simp [QueueKey.name] at hlist ⊢
  all_goals exact String.toList_inj.mp hlist

/-- Tenant ids without a colon never share a key, nor do two keys of one tenant. -/
theorem redisKey_inj {tenantId tenantId' : String} {key key' : QueueKey}
    (htenant : ':' ∉ tenantId.toList) (htenant' : ':' ∉ tenantId'.toList)
    (h : redisKey tenantId key = redisKey tenantId' key') : tenantId = tenantId' ∧ key = key' := by
  have hlist := congrArg String.toList h
  simp only [redisKey, String.toList_append, List.append_assoc] at hlist
  obtain ⟨hids, hnames⟩ := ColonTexts.colon_inj htenant htenant' (List.append_cancel_left hlist)
  exact ⟨String.toList_inj.mp hids, QueueKey.name_inj (String.toList_inj.mp hnames)⟩

theorem Adapters.apart_of_colonless {a : Adapters} {call : Call}
    (hcall : ':' ∉ call.tenantId.toList) (hused : ∀ u ∈ a.used, ':' ∉ u.1.toList) :
    a.apart call = true := by
  simp only [Adapters.apart, List.all_eq_true, Bool.or_eq_true, decide_eq_true_eq]
  intro u hu
  by_cases htenant : u.1 = call.tenantId
  · exact .inl htenant
  · refine .inr fun key _ hkey => htenant ?_
    exact (redisKey_inj hcall (hused u hu) hkey).1.symm

/-- What one adapter holds for a task: is it pending, processing, dead-lettered. -/
def localPlaces (l : LocalQueue) (tenantId t : String) : Bool × Bool × Bool :=
  (l.queue.any (LocalAdapter.matchesTask tenantId t), l.claims.has (tenantId, t),
    l.deadLetter.any (LocalAdapter.DeadLetter.isFor tenantId t))

def redisPlaces (q : RedisQueues) (tenantId t : String) : Bool × Bool × Bool :=
  ((q tenantId).pendingOrder.has t, (q tenantId).processingPayloads.has t,
    (q tenantId).deadPayloads.has t)

/-- Equal answers to every call so far, and the same tasks in the same places. -/
def Agree (a : Adapters) : Prop :=
  (∀ answer ∈ a.answers, answer.1 = answer.2) ∧
    ∀ tenantId t, localPlaces a.here tenantId t = redisPlaces a.redis tenantId t

section Guard
variable (a : Adapters)

/-- cjson decodes the payload and can encode it again inside an envelope. -/
def printable : Payload → Bool
  | .json doc => doc.depth + 1 ≤ maxDepth && finite (readValue doc)
  | .text _ => false

/-- The task is pending or processing. -/
def present (q : RedisQueues) (tenantId t : String) : Bool :=
  (q tenantId).pendingPayloads.has t || (q tenantId).processingPayloads.has t

/-- The payload a dead-letter call finds, if there is one, is printable. -/
def printableTask (tenantId t : String) : Bool :=
  (((a.redis tenantId).processingPayloads.get t).or
    ((a.redis tenantId).pendingPayloads.get t)).all printable

/-- No tenant has messages before and behind the first message of `tenantId`. -/
def straightQueue (queue : List QueueMessage) (tenantId : String) : Bool :=
  let before := queue.takeWhile fun m => m.tenantId ≠ tenantId
  let behind := queue.dropWhile fun m => m.tenantId ≠ tenantId
  before.all fun m => behind.all fun m' => m'.tenantId ≠ m.tenantId

/-- The call is one on which the adapters follow the same rules. -/
def Adapters.uniform : Call → Bool
  | .enqueueTask m => !present a.redis m.message.tenantId m.message.taskId
  | .enqueueTaskIdempotent m k =>
      if a.here.dispatchKeys.has k then (a.redis m.message.tenantId).dispatchKeys.has k
      else !present a.redis m.message.tenantId m.message.taskId
  | .claimTask tenantId _ => straightQueue a.here.queue tenantId
  | .failTask tenantId t w _ _ =>
      a.here.owner tenantId t ≠ some w || printableTask a tenantId t
  | .moveToDeadLetter tenantId t _ _ =>
      a.here.claims.has (tenantId, t) || printableTask a tenantId t
  | .moveOwnedToDeadLetter tenantId t w _ _ =>
      match a.here.owner tenantId t with
      | none => printableTask a tenantId t
      | some owner => owner ≠ w || (w ≠ "" && printableTask a tenantId t)
  | .retryDeadLetter tenantId t =>
      present a.redis tenantId t ||
        ((a.here.deadLetter.filter (LocalAdapter.DeadLetter.isFor tenantId t)).length ≤ 1 &&
          ((a.redis tenantId).deadPayloads.get t).all fun raw =>
            match RedisQueue.retryPayload tenantId t raw with
            | .ok payload => (encode payload).isSome
            | .error _ => true)
  | _ => true

/-- Besides, Redis gets the message and keeps the tenants apart. -/
def Adapters.regular (levels : ℕ) (call : Call) : Bool :=
  call.dumpable levels && a.apart call && a.uniform call

end Guard

/-- What the local adapter holds for one tenant. -/
@[ext] structure View where
  pending : List QueueMessage
  claim : String → Option (String × QueueMessage)
  dead : String → List LocalAdapter.DeadLetter

def view (l : LocalQueue) (tenantId : String) : View where
  pending := l.queue.filter fun m => m.tenantId = tenantId
  claim t := l.claims.get (tenantId, t)
  dead t := l.deadLetter.filter (LocalAdapter.DeadLetter.isFor tenantId t)

def View.ids (v : View) : List String := v.pending.map QueueMessage.taskId

def View.find (v : View) (t : String) : Option QueueMessage := v.pending.find? (·.taskId = t)

section Moves
variable (v : View) (t : String)

def View.push (m : QueueMessage) : View := { v with pending := v.pending ++ [m] }

def View.take : View := { v with pending := v.pending.filter (·.taskId ≠ t) }

def View.own (w : String) (m : QueueMessage) : View :=
  { v with claim := Function.update v.claim t (some (w, m)) }

def View.disown : View := { v with claim := Function.update v.claim t none }

def View.bury (e : LocalAdapter.DeadLetter) : View :=
  { v with dead := Function.update v.dead t (v.dead t ++ [e]) }

def View.unbury : View := { v with dead := Function.update v.dead t [] }

end Moves

/-- A stored payload and a message in memory for the same task. -/
structure Copy (tenantId t : String) (raw : Payload) (m : QueueMessage) : Prop where
  tenant : m.tenantId = tenantId
  task : m.taskId = t
  identified : m.Identified
  stored : ∃ m', raw = encodeMessage m' ∧ m'.tenantId = tenantId ∧ m'.taskId = t ∧ m'.Identified

/-- A stored envelope and one in memory: both hold a message of the task, or neither does. -/
def Buried (tenantId t : String) (raw : Payload) (e : LocalAdapter.DeadLetter) : Prop :=
  (∃ m m', LocalAdapter.messageFromPayload e.payload = some m ∧
      RedisQueue.retryPayload tenantId t raw = .ok (readValue (RedisQueue.messageDoc m')) ∧
      Copy tenantId t (encodeMessage m') m) ∨
    (LocalAdapter.messageFromPayload e.payload = none ∧
      ∃ reason, RedisQueue.retryPayload tenantId t raw = .error reason)

/-- The store of a tenant holds what the local adapter holds for it. -/
structure Simulates (tenantId : String) (v : View) (s : Store) : Prop where
  order : s.pendingOrder.Ranked v.ids
  bound : ∀ t r, s.pendingOrder.get t = some r → r ≤ s.sequence
  pending : ∀ t, Option.Rel (Copy tenantId t) (s.pendingPayloads.get t) (v.find t)
  processing : ∀ t, Option.Rel (Copy tenantId t) (s.processingPayloads.get t)
    ((v.claim t).map Prod.snd)
  lease : ∀ t, s.leases.get t = (v.claim t).map Prod.fst
  apart : ∀ t, (v.claim t).isSome = true → t ∉ v.ids
  dead : ∀ t, Option.Rel (Buried tenantId t) (s.deadPayloads.get t) (v.dead t).getLast?

section Views
variable {v : View} {t : String} {m : QueueMessage}

theorem View.ids_push : (v.push m).ids = v.ids ++ [m.taskId] := by
  simp [View.ids, View.push]

theorem View.ids_take : (v.take t).ids = v.ids.filter (· ≠ t) := by
  simp [View.ids, View.take, List.filter_map, Function.comp_def]

theorem View.find_eq_none : v.find t = none ↔ t ∉ v.ids := by
  unfold View.find View.ids
  rw [List.find?_eq_none]
  simp

theorem View.find_push (h : m.taskId ∉ v.ids) (u : String) :
    (v.push m).find u = if u = m.taskId then some m else v.find u := by
  have happend : (v.push m).find u = (v.find u).or ([m].find? (·.taskId = u)) := by
    simp [View.find, View.push, List.find?_append]
  rw [happend]
  split_ifs with hu
  · subst hu
    rw [View.find_eq_none.mpr h]
    simp
  · have hne : m.taskId ≠ u := fun heq => hu heq.symm
    simp [hne]

theorem View.find_take (u : String) :
    (v.take t).find u = if u = t then none else v.find u := by
  split_ifs with hu
  · rw [View.find_eq_none, View.ids_take]
    simp [hu]
  · simp only [View.find, View.take, List.find?_filter]
    congr 1
    funext m
    by_cases hm : m.taskId = u
    · simp [hm, hu]
    · simp [hm]

end Views

section Moves
variable {tenantId t : String} {v : View} {s : Store} (h : Simulates tenantId v s)
include h

theorem Simulates.push {m : QueueMessage} {raw : Payload} (hcopy : Copy tenantId t raw m)
    (hnew : t ∉ v.ids) (hclaim : v.claim t = none) :
    Simulates tenantId (v.push m) (s.pushPending t raw) where
  order := by
    rw [View.ids_push, hcopy.task]
    exact h.order.push hnew fun k r hr => Nat.lt_succ_of_le (h.bound k r hr)
  bound u r hr := by
    simp only [Store.pushPending, Table.get_put] at hr ⊢
    split_ifs at hr
    · exact (Option.some.inj hr).ge
    · exact Nat.le_succ_of_le (h.bound u r hr)
  pending u := by
    rw [View.find_push (hcopy.task ▸ hnew), hcopy.task]
    simp only [Store.pushPending, Table.get_put]
    split_ifs with hu
    · exact .some (hu ▸ hcopy)
    · exact h.pending u
  processing := h.processing
  lease := h.lease
  apart u hu := by
    rw [View.ids_push, hcopy.task]
    have hne : u ≠ t := by
      rintro rfl
      have hsome : (v.claim u).isSome = true := hu
      simp [hclaim] at hsome
    simpa [hne] using h.apart u hu
  dead := h.dead

theorem Simulates.take (t : String) : Simulates tenantId (v.take t) (s.dropPending t) where
  order := by
    rw [View.ids_take]
    exact h.order.del t
  bound u r hr := by
    simp only [Store.dropPending, Table.get_del] at hr
    split_ifs at hr
    exact h.bound u r hr
  pending u := by
    rw [View.find_take]
    simp only [Store.dropPending, Table.get_del]
    split_ifs
    · exact .none
    · exact h.pending u
  processing := h.processing
  lease := h.lease
  apart u hu := by
    rw [View.ids_take]
    exact fun hmem => h.apart u hu (List.mem_of_mem_filter hmem)
  dead := h.dead

/-- A payload that is not pending is processing for `w`. -/
theorem Simulates.own {m : QueueMessage} {raw : Payload} (hcopy : Copy tenantId t raw m)
    (hnew : t ∉ v.ids) (w : String) : Simulates tenantId (v.own t w m)
      { s with
        processingPayloads := s.processingPayloads.put t raw
        leases := s.leases.put t w } where
  order := h.order
  bound := h.bound
  pending := h.pending
  processing u := by
    simp only [View.own, Table.get_put, Function.update_apply]
    split_ifs with hu
    · exact .some (hu ▸ hcopy)
    · exact h.processing u
  lease u := by
    simp only [View.own, Table.get_put, Function.update_apply]
    split_ifs
    · rfl
    · exact h.lease u
  apart u hu := by
    by_cases hut : u = t
    · subst hut
      exact hnew
    · have hold : (v.claim u).isSome = true := by
        simpa [View.own, Function.update_apply, hut] using hu
      exact h.apart u hold
  dead := h.dead

theorem Simulates.disown (t : String) :
    Simulates tenantId (v.disown t) ((s.dropProcessing t).dropLease t) where
  order := h.order
  bound := h.bound
  pending := h.pending
  processing u := by
    simp only [View.disown, Store.dropProcessing, Store.dropLease, Table.get_del,
      Function.update_apply]
    split_ifs
    · exact .none
    · exact h.processing u
  lease u := by
    simp only [View.disown, Store.dropProcessing, Store.dropLease, Table.get_del,
      Function.update_apply]
    split_ifs
    · rfl
    · exact h.lease u
  apart u hu := by
    refine h.apart u ?_
    by_cases hut : u = t
    · simp [View.disown, hut] at hu
    · simpa [View.disown, Function.update_apply, hut] using hu
  dead := h.dead

theorem Simulates.bury {e : LocalAdapter.DeadLetter} {raw : Payload}
    (hburied : Buried tenantId t raw e) :
    Simulates tenantId (v.bury t e) (s.pushDead t raw) where
  order := h.order
  bound u r hr := Nat.le_succ_of_le (h.bound u r hr)
  pending := h.pending
  processing := h.processing
  lease := h.lease
  apart := h.apart
  dead u := by
    simp only [View.bury, Store.pushDead, Table.get_put, Function.update_apply]
    split_ifs with hu
    · subst hu
      rw [List.getLast?_append]
      exact .some hburied
    · exact h.dead u

theorem Simulates.unbury (t : String) : Simulates tenantId (v.unbury t) (s.dropDead t) where
  order := h.order
  bound := h.bound
  pending := h.pending
  processing := h.processing
  lease := h.lease
  apart := h.apart
  dead u := by
    simp only [View.unbury, Store.dropDead, Table.get_del, Function.update_apply]
    split_ifs
    · exact .none
    · exact h.dead u

end Moves

section Reading
variable {tenantId t w : String} {v : View} {s : Store} {m : QueueMessage}
  (h : Simulates tenantId v s)
include h

theorem Simulates.of_find (hfind : v.find t = some m) :
    ∃ raw, s.pendingPayloads.get t = some raw ∧ Copy tenantId t raw m := by
  have hrel := h.pending t
  rw [hfind] at hrel
  cases hraw : s.pendingPayloads.get t with
  | none => rw [hraw] at hrel; cases hrel
  | some raw =>
    rw [hraw] at hrel
    cases hrel with
    | some hcopy => exact ⟨raw, rfl, hcopy⟩

theorem Simulates.of_not_find (hfind : v.find t = none) : s.pendingPayloads.get t = none := by
  have hrel := h.pending t
  rw [hfind] at hrel
  cases hraw : s.pendingPayloads.get t with
  | none => rfl
  | some raw => rw [hraw] at hrel; cases hrel

theorem Simulates.of_claim (hclaim : v.claim t = some (w, m)) :
    s.leases.get t = some w ∧
      ∃ raw, s.processingPayloads.get t = some raw ∧ Copy tenantId t raw m := by
  have hrel := h.processing t
  rw [hclaim, Option.map_some] at hrel
  refine ⟨by rw [h.lease t, hclaim, Option.map_some], ?_⟩
  cases hraw : s.processingPayloads.get t with
  | none => rw [hraw] at hrel; cases hrel
  | some raw =>
    rw [hraw] at hrel
    cases hrel with
    | some hcopy => exact ⟨raw, rfl, hcopy⟩

theorem Simulates.of_not_claim (hclaim : v.claim t = none) :
    s.leases.get t = none ∧ s.processingPayloads.get t = none := by
  have hrel := h.processing t
  rw [hclaim, Option.map_none] at hrel
  refine ⟨by rw [h.lease t, hclaim, Option.map_none], ?_⟩
  cases hraw : s.processingPayloads.get t with
  | none => rfl
  | some raw => rw [hraw] at hrel; cases hrel

/-- A claimed task is not pending as well. -/
theorem Simulates.not_find_of_claim (hclaim : (v.claim t).isSome = true) : v.find t = none :=
  View.find_eq_none.mpr (h.apart t hclaim)

theorem Simulates.not_ordered (hclaim : (v.claim t).isSome = true) :
    s.pendingOrder.get t = none := by
  rw [← Table.has_eq_false, Bool.eq_false_iff, Ne, h.order.members]
  exact h.apart t hclaim

theorem Simulates.of_not_dead (hdead : v.dead t = []) : s.deadPayloads.get t = none := by
  have hrel := h.dead t
  rw [hdead] at hrel
  cases hraw : s.deadPayloads.get t with
  | none => rfl
  | some raw => rw [hraw] at hrel; cases hrel

theorem Simulates.of_dead {e : LocalAdapter.DeadLetter} (hdead : v.dead t = [e]) :
    ∃ raw, s.deadPayloads.get t = some raw ∧ Buried tenantId t raw e := by
  have hrel := h.dead t
  rw [hdead] at hrel
  cases hraw : s.deadPayloads.get t with
  | none => rw [hraw] at hrel; cases hrel
  | some raw =>
    rw [hraw] at hrel
    cases hrel with
    | some hburied => exact ⟨raw, rfl, hburied⟩

end Reading

section LocalViews
variable (l : LocalQueue) {tenantId t : String}

theorem view_append (m : QueueMessage) (x : String) : view (l.append m) x =
    if x = m.tenantId then (view l x).push m else view l x := by
  split_ifs with hx
  · simp [view, LocalQueue.append, View.push, hx]
  · have hne : m.tenantId ≠ x := fun heq => hx heq.symm
    simp [view, LocalQueue.append, hne]

theorem view_popClaim (x : String) : view (l.popClaim tenantId t) x =
    if x = tenantId then (view l x).disown t else view l x := by
  split_ifs with hx
  · subst hx
    refine View.ext rfl (funext fun u => ?_) rfl
    simp [view, LocalQueue.popClaim, View.disown, Table.get_del, Function.update_apply]
  · refine View.ext rfl (funext fun u => ?_) rfl
    simp [view, LocalQueue.popClaim, Table.get_del, hx]

theorem isFor_iff {e : LocalAdapter.DeadLetter} : e.isFor tenantId t = true ↔
    e.taskId = t ∧ RedisQueue.textField e.payload "tenant_id" = some tenantId := by
  simp [LocalAdapter.DeadLetter.isFor]

theorem filter_eraseP {α : Type*} {p q : α → Bool} {xs : List α}
    (h : ∀ x ∈ xs, p x = true → q x = false) : (xs.eraseP p).filter q = xs.filter q := by
  induction xs with
  | nil => rfl
  | cons x xs ih =>
    have hrest := ih fun y hy => h y (List.mem_cons_of_mem x hy)
    cases hp : p x with
    | true => simp [hp, h x List.mem_cons_self hp]
    | false =>
      rw [List.eraseP_cons_of_neg (by simp [hp]), List.filter_cons, List.filter_cons, hrest]

/-- Erase the only dead letter of a task. -/
theorem view_eraseDead {e : LocalAdapter.DeadLetter} (h : (view l tenantId).dead t = [e])
    (x : String) :
    view { l with
      deadLetter := l.deadLetter.eraseP (LocalAdapter.DeadLetter.isFor tenantId t) } x =
      if x = tenantId then (view l x).unbury t else view l x := by
  have hother : ∀ u, x ≠ tenantId ∨ u ≠ t →
      (l.deadLetter.eraseP (LocalAdapter.DeadLetter.isFor tenantId t)).filter
        (LocalAdapter.DeadLetter.isFor x u) = (view l x).dead u := by
    intro u hne
    refine filter_eraseP fun e _ he => ?_
    rw [Bool.eq_false_iff, Ne, isFor_iff]
    rintro ⟨htask, htenant⟩
    obtain ⟨htask', htenant'⟩ := isFor_iff.mp he
    rcases hne with hne | hne
    · exact hne (Option.some.inj (htenant.symm.trans htenant'))
    · exact hne (htask.symm.trans htask')
  split_ifs with hx
  · subst hx
    refine View.ext rfl rfl (funext fun u => ?_)
    simp only [View.unbury, Function.update_apply]
    split_ifs with hu
    · subst hu
      have herase := List.eraseP_filter (p := LocalAdapter.DeadLetter.isFor x u)
        (f := LocalAdapter.DeadLetter.isFor x u) (l := l.deadLetter)
      simp only [Bool.and_self] at herase
      have hdead : l.deadLetter.filter (LocalAdapter.DeadLetter.isFor x u) = [e] := h
      have hfor : e.isFor x u = true :=
        (List.mem_filter.mp (hdead ▸ List.mem_singleton_self e)).2
      simp only [view]
      rw [← herase, hdead, List.eraseP_cons_of_pos hfor]
    · exact hother u (.inr hu)
  · exact View.ext rfl rfl (funext fun u => hother u (.inl hx))

/-- Where the keys are distinct, erasing the first match removes all matches. -/
theorem eraseP_eq_filter {t : String} {p : QueueMessage → Bool} {xs : List QueueMessage}
    (hnodup : (xs.map QueueMessage.taskId).Nodup) (h : ∀ m ∈ xs, p m = decide (m.taskId = t)) :
    xs.eraseP p = xs.filter fun m => decide (m.taskId ≠ t) := by
  induction xs with
  | nil => rfl
  | cons m xs ih =>
    rw [List.map_cons, List.nodup_cons] at hnodup
    have hrest := ih hnodup.2 fun m' hm' => h m' (List.mem_cons_of_mem m hm')
    have hm := h m List.mem_cons_self
    by_cases htask : m.taskId = t
    · rw [List.eraseP_cons_of_pos (by simp [hm, htask]), List.filter_cons_of_neg (by simp [htask])]
      refine (List.filter_eq_self.mpr fun m' hm' => ?_).symm
      have hne : m'.taskId ≠ t := fun heq =>
        hnodup.1 (htask ▸ heq ▸ List.mem_map_of_mem hm')
      simpa using hne
    · rw [List.eraseP_cons_of_neg (by simp [hm, htask]), List.filter_cons_of_pos (by simp [htask]),
        hrest]

theorem view_putClaim (w : String) (m : QueueMessage) (x : String) :
    view { l with claims := l.claims.put (tenantId, t) (w, m) } x =
      if x = tenantId then (view l x).own t w m else view l x := by
  split_ifs with hx
  · subst hx
    refine View.ext rfl (funext fun u => ?_) rfl
    simp [view, View.own, Table.get_put, Function.update_apply]
  · refine View.ext rfl (funext fun u => ?_) rfl
    simp [view, Table.get_put, hx]

theorem view_withoutPending (x : String) : view (l.withoutPending tenantId t) x =
    if x = tenantId then (view l x).take t else view l x := by
  split_ifs with hx
  · subst hx
    refine View.ext ?_ rfl rfl
    simp only [view, LocalQueue.withoutPending, View.take, List.filter_filter]
    refine List.filter_congr fun m _ => ?_
    by_cases hm : m.tenantId = x <;> simp [LocalAdapter.matchesTask, hm]
  · refine View.ext ?_ rfl rfl
    simp only [view, LocalQueue.withoutPending, List.filter_filter]
    refine List.filter_congr fun m _ => ?_
    by_cases hm : m.tenantId = x
    · simp [LocalAdapter.matchesTask, hm, hx]
    · simp [hm]

theorem view_bury {e : LocalAdapter.DeadLetter} (he : e.isFor tenantId t = true) (x : String) :
    view (l.bury e) x = if x = tenantId then (view l x).bury t e else view l x := by
  obtain ⟨htask, htenant⟩ := isFor_iff.mp he
  split_ifs with hx
  · subst hx
    refine View.ext rfl rfl (funext fun u => ?_)
    simp only [view, LocalQueue.bury, View.bury, List.filter_append, Function.update_apply]
    by_cases hu : u = t
    · simp [hu, he]
    · have hne : e.isFor x u = false := by
        rw [Bool.eq_false_iff, Ne, isFor_iff]
        exact fun hfor => hu (hfor.1.symm.trans htask)
      simp [hu, hne]
  · refine View.ext rfl rfl (funext fun u => ?_)
    have hne : e.isFor x u = false := by
      rw [Bool.eq_false_iff, Ne, isFor_iff]
      exact fun hfor => hx (Option.some.inj (hfor.2.symm.trans htenant))
    simp [view, LocalQueue.bury, hne]

/-- The first message of a task is the first one in the view of its tenant. -/
theorem find_view : l.queue.find? (LocalAdapter.matchesTask tenantId t) =
    (view l tenantId).find t := by
  simp only [view, View.find, List.find?_filter]
  congr 1
  funext m
  simp [LocalAdapter.matchesTask]

theorem queue_any : l.queue.any (LocalAdapter.matchesTask tenantId t) =
    ((view l tenantId).find t).isSome := by
  rw [← find_view, Bool.eq_iff_iff, List.find?_isSome, List.any_eq_true]

/-- The first dead letter of a task is the first one in the view of its tenant. -/
theorem find_dead : l.deadLetter.find? (LocalAdapter.DeadLetter.isFor tenantId t) =
    ((view l tenantId).dead t).head? := (List.head?_filter ..).symm

theorem has_claims : l.claims.has (tenantId, t) = ((view l tenantId).claim t).isSome := rfl

theorem owner_eq : l.owner tenantId t = ((view l tenantId).claim t).map Prod.fst := rfl

end LocalViews

/-- The store holds what `l'` holds for the tenant, and `l'` holds for the others what `l`
does. -/
def Tracks (tenantId : String) (l l' : LocalQueue) (s : Store) : Prop :=
  Simulates tenantId (view l' tenantId) s ∧ ∀ x, x ≠ tenantId → view l' x = view l x

section Tracking
variable {tenantId t : String} {l l' : LocalQueue} {s : Store} {raw : Payload} {m : QueueMessage}

theorem Tracks.refl (h : Simulates tenantId (view l tenantId) s) : Tracks tenantId l l s :=
  ⟨h, fun _ _ => rfl⟩

theorem Tracks.append (h : Tracks tenantId l l' s) (hcopy : Copy tenantId t raw m)
    (hfind : (view l' tenantId).find t = none) (hclaim : (view l' tenantId).claim t = none) :
    Tracks tenantId l (l'.append m) (s.pushPending t raw) := by
  constructor
  · rw [view_append, if_pos hcopy.tenant.symm]
    exact h.1.push hcopy (View.find_eq_none.mp hfind) hclaim
  · intro x hx
    rw [view_append, if_neg (hcopy.tenant ▸ hx), h.2 x hx]

theorem Tracks.withoutPending (h : Tracks tenantId l l' s) (t : String) :
    Tracks tenantId l (l'.withoutPending tenantId t) (s.dropPending t) := by
  constructor
  · rw [view_withoutPending, if_pos rfl]
    exact h.1.take t
  · intro x hx
    rw [view_withoutPending, if_neg hx, h.2 x hx]

theorem Tracks.popClaim (h : Tracks tenantId l l' s) (t : String) :
    Tracks tenantId l (l'.popClaim tenantId t) ((s.dropProcessing t).dropLease t) := by
  constructor
  · rw [view_popClaim, if_pos rfl]
    exact h.1.disown t
  · intro x hx
    rw [view_popClaim, if_neg hx, h.2 x hx]

theorem Tracks.bury {e : LocalAdapter.DeadLetter} (h : Tracks tenantId l l' s)
    (he : e.isFor tenantId t = true) (hburied : Buried tenantId t raw e) :
    Tracks tenantId l (l'.bury e) (s.pushDead t raw) := by
  constructor
  · rw [view_bury l' he, if_pos rfl]
    exact h.1.bury hburied
  · intro x hx
    rw [view_bury l' he, if_neg hx, h.2 x hx]

theorem Tracks.unbury {e : LocalAdapter.DeadLetter} (h : Tracks tenantId l l' s)
    (hdead : (view l' tenantId).dead t = [e]) :
    Tracks tenantId l { l' with
      deadLetter := l'.deadLetter.eraseP (LocalAdapter.DeadLetter.isFor tenantId t) }
      (s.dropDead t) := by
  constructor
  · rw [view_eraseDead l' hdead, if_pos rfl]
    exact h.1.unbury t
  · intro x hx
    rw [view_eraseDead l' hdead, if_neg hx, h.2 x hx]

/-- A pending message leaves the queue and is claimed by `w`. -/
theorem Tracks.claim (h : Simulates tenantId (view l tenantId) s) (hcopy : Copy tenantId t raw m)
    (w : String) {queue : List QueueMessage}
    (hqueue : ∀ x, queue.filter (fun m => m.tenantId = x) =
      if x = tenantId then ((view l x).take t).pending else (view l x).pending) :
    Tracks tenantId l { l with queue, claims := l.claims.put (tenantId, t) (w, m) }
      { s.moveToProcessing t raw with leases := s.leases.put t w } := by
  have hview : ∀ x, view { l with queue, claims := l.claims.put (tenantId, t) (w, m) } x =
      if x = tenantId then ((view l x).take t).own t w m else view l x := by
    intro x
    have hput : view { l with queue, claims := l.claims.put (tenantId, t) (w, m) } x =
        if x = tenantId then (view { l with queue } x).own t w m else view { l with queue } x :=
      view_putClaim { l with queue } w m x
    rw [hput]
    have hx := hqueue x
    split_ifs at hx ⊢
    · exact View.ext hx rfl rfl
    · exact View.ext hx rfl rfl
  constructor
  · rw [hview, if_pos rfl]
    refine (h.take t).own hcopy ?_ w
    simp [View.ids_take]
  · intro x hx
    rw [hview, if_neg hx]

/-- A task that is not claimed has no lease key and nothing in processing to drop. -/
theorem find_popClaim (h : Simulates tenantId (view l tenantId) s)
    (hclaim : ((view l tenantId).claim t).isSome = true) :
    (view (l.popClaim tenantId t) tenantId).find t = none ∧
      (view (l.popClaim tenantId t) tenantId).claim t = none := by
  rw [view_popClaim, if_pos rfl]
  exact ⟨h.not_find_of_claim hclaim, by simp [View.disown]⟩

theorem find_withoutPending (l : LocalQueue) (tenantId t : String) :
    (view (l.withoutPending tenantId t) tenantId).find t = none ∧
      (view (l.withoutPending tenantId t) tenantId).claim t = (view l tenantId).claim t := by
  rw [view_withoutPending, if_pos rfl]
  exact ⟨by rw [View.find_take, if_pos rfl], rfl⟩

end Tracking

section Envelopes
variable {tenantId t : String} {raw : Payload} {m : QueueMessage}

theorem Copy.doc (h : Copy tenantId t raw m) : ∃ m', raw = .json (RedisQueue.messageDoc m') ∧
    m'.tenantId = tenantId ∧ m'.taskId = t ∧ m'.Identified := by
  obtain ⟨m', rfl, hrest⟩ := h.stored
  exact ⟨m', rfl, hrest⟩

/-- A printable payload goes into an envelope, and the retry takes its message out. -/
theorem Copy.envelope {envelope : Json → Json} (he : RedisQueue.Envelope envelope)
    (h : Copy tenantId t raw m) (hprintable : printable raw = true) :
    ∃ doc sealed m', RedisQueue.decodeTable raw = some doc ∧ encode (envelope doc) = some sealed ∧
      RedisQueue.retryPayload tenantId t sealed = .ok (readValue (RedisQueue.messageDoc m')) ∧
      Copy tenantId t (encodeMessage m') m := by
  obtain ⟨m', rfl, htenant, htask, hid⟩ := h.doc
  simp only [printable, Bool.and_eq_true, decide_eq_true_eq] at hprintable
  obtain ⟨hdepth, hfinite⟩ := hprintable
  have hdecode := RedisQueue.decodeTable_json (v := RedisQueue.messageDoc m') rfl (by omega)
  have hread : (readValue (RedisQueue.messageDoc m')).depth + 1 ≤ maxDepth := by
    rwa [readValue_depth]
  have hseal := RedisQueue.encode_envelope he hread hfinite
  have hreprint : printValue (readValue (RedisQueue.messageDoc m')) =
      RedisQueue.messageDoc (m'.withPayload (printFields (readFields m'.payload))) :=
    RedisQueue.reprint_messageDoc m'
  rw [hreprint] at hseal
  have hlevel : (RedisQueue.messageDoc
      (m'.withPayload (printFields (readFields m'.payload)))).depth + 1 ≤ maxDepth := by
    rw [← hreprint, printValue_depth, readValue_depth]
    exact hdepth
  have hretry := RedisQueue.retryPayload_messageDoc he
    (m := m'.withPayload (printFields (readFields m'.payload))) htenant hlevel
  refine ⟨_, _, m'.withPayload (printFields (readFields m'.payload)), hdecode, hseal, ?_,
    h.tenant, h.task, h.identified, _, rfl, htenant, htask, hid⟩
  rw [← htask]
  exact hretry

theorem Copy.reprint {m' : QueueMessage} {again : Payload} (h : Copy tenantId t (encodeMessage m') m)
    (hagain : encode (readValue (RedisQueue.messageDoc m')) = some again) :
    Copy tenantId t again m := by
  obtain ⟨m'', hraw, htenant, htask, hid⟩ := h.doc
  have hdoc : RedisQueue.messageDoc m' = RedisQueue.messageDoc m'' := Payload.json.inj hraw
  rw [hdoc, encode] at hagain
  split_ifs at hagain
  have hreprint : printValue (readValue (RedisQueue.messageDoc m'')) =
      RedisQueue.messageDoc (m''.withPayload (printFields (readFields m''.payload))) :=
    RedisQueue.reprint_messageDoc m''
  rw [hreprint] at hagain
  exact ⟨h.tenant, h.task, h.identified, _, (Option.some.inj hagain).symm, htenant, htask, hid⟩

/-- The envelope of a message in memory. -/
theorem isFor_message {reason now : String} {w : Option String} (h : Copy tenantId t raw m) :
    (LocalAdapter.deadLetterEnvelope tenantId t reason now w (some m)).isFor tenantId t = true := by
  rw [isFor_iff]
  refine ⟨h.task, ?_⟩
  simp [LocalAdapter.deadLetterEnvelope, RedisQueue.textField, RedisQueue.messageFields,
    Fields.get_cons, h.tenant]

theorem isFor_synthetic (tenantId t reason now : String) (w : Option String) :
    (LocalAdapter.deadLetterEnvelope tenantId t reason now w none).isFor tenantId t = true := by
  rw [isFor_iff]
  simp [LocalAdapter.deadLetterEnvelope, RedisQueue.textField, Fields.get_cons]

/-- The retry refuses the payload the dead-letter script substitutes. -/
theorem retryPayload_synthetic {envelope : Json → Json} (he : RedisQueue.Envelope envelope)
    (tenantId t : String) : ∃ reason, RedisQueue.retryPayload tenantId t
      (.json (envelope (printValue (RedisQueue.syntheticPayload tenantId t)))) =
        .error reason := by
  have hprint : printValue (RedisQueue.syntheticPayload tenantId t) =
      RedisQueue.syntheticPayload tenantId t := rfl
  obtain ⟨fs, hobj, hget⟩ := he.obj (RedisQueue.syntheticPayload tenantId t)
  have hdepth : (Json.obj fs).depth ≤ maxDepth := by
    rw [← hobj, he.depth]
    simp [RedisQueue.syntheticPayload, Json.depth, Json.depthFields, maxDepth]
  have hread : ((readValue (.obj fs)).field "payload").filter RedisQueue.isTable =
      some (RedisQueue.syntheticPayload tenantId t) := by
    simp [readValue, Json.field, hget, RedisQueue.syntheticPayload, readFields,
      RedisQueue.isTable]
  rw [hprint, hobj]
  simp only [RedisQueue.retryPayload, RedisQueue.decodeTable_json (v := .obj fs) rfl hdepth, hread]
  simp [RedisQueue.syntheticPayload, Json.field, Fields.get_cons, RedisQueue.tostring]

theorem messageFromPayload_message (hid : m.Identified) :
    LocalAdapter.messageFromPayload (RedisQueue.messageFields m) = some m :=
  RedisQueue.decodeMessage_messageDoc hid

end Envelopes

section Tables
variable {tenantId t : String} {l l' : LocalQueue} {v : View} {s s' : Store}

/-- The store matters through what its tables answer. -/
theorem Simulates.congr (h : Simulates tenantId v s)
    (horder : ∀ u, s'.pendingOrder.get u = s.pendingOrder.get u)
    (hsequence : s'.sequence = s.sequence)
    (hpending : ∀ u, s'.pendingPayloads.get u = s.pendingPayloads.get u)
    (hprocessing : ∀ u, s'.processingPayloads.get u = s.processingPayloads.get u)
    (hlease : ∀ u, s'.leases.get u = s.leases.get u)
    (hdead : ∀ u, s'.deadPayloads.get u = s.deadPayloads.get u) : Simulates tenantId v s' where
  order :=
    { members := fun u => by rw [Table.has, horder u]; exact h.order.members u
      ascending := by
        refine h.order.ascending.imp fun {a b} hab => ?_
        rwa [horder a, horder b] }
  bound u r hr := by
    rw [horder] at hr
    exact hsequence ▸ h.bound u r hr
  pending u := by rw [hpending]; exact h.pending u
  processing u := by rw [hprocessing]; exact h.processing u
  lease u := by rw [hlease]; exact h.lease u
  apart := h.apart
  dead u := by rw [hdead]; exact h.dead u

theorem View.take_of_not_find (h : v.find t = none) : v.take t = v := by
  refine View.ext (List.filter_eq_self.mpr fun m hm => ?_) rfl rfl
  have hmem := View.find_eq_none.mp h
  simp only [View.ids, List.mem_map, not_exists, not_and] at hmem
  simpa using hmem m hm

theorem Tracks.withoutAbsent (h : Tracks tenantId l l' s)
    (hfind : (view l' tenantId).find t = none) :
    Tracks tenantId l (l'.withoutPending tenantId t) s := by
  constructor
  · rw [view_withoutPending, if_pos rfl, View.take_of_not_find hfind]
    exact h.1
  · intro x hx
    rw [view_withoutPending, if_neg hx, h.2 x hx]

end Tables

section ClaimLoop
variable {tenantId t : String} {l : LocalQueue} {m : QueueMessage} {behind : List QueueMessage}

/-- The loop rotates what stands before the first message of the tenant. -/
theorem claimLoop_eq (l : LocalQueue) (tenantId : String) {rest : List QueueMessage}
    (hfree : ∀ m ∈ rest, m.tenantId = tenantId → l.claims.has (tenantId, m.taskId) = false)
    (rotated : List QueueMessage) :
    LocalAdapter.claimLoop l tenantId rest rotated =
      match rest.dropWhile fun m => decide (m.tenantId ≠ tenantId) with
      | [] => (none, rotated ++ rest)
      | m :: behind => (some m,
          behind ++ (rotated ++ rest.takeWhile fun m => decide (m.tenantId ≠ tenantId))) := by
  induction rest generalizing rotated with
  | nil => simp [LocalAdapter.claimLoop]
  | cons m rest ih =>
    have hrest := ih fun m' hm' => hfree m' (List.mem_cons_of_mem m hm')
    by_cases htenant : m.tenantId = tenantId
    · simp [LocalAdapter.claimLoop, htenant, hfree m List.mem_cons_self htenant]
    · simp only [LocalAdapter.claimLoop, htenant, ne_eq, not_false_eq_true, if_true,
        decide_true, List.dropWhile_cons_of_pos, List.takeWhile_cons_of_pos]
      rw [hrest]
      simp only [ne_eq, List.append_assoc, List.singleton_append]

theorem filter_before (queue : List QueueMessage) (tenantId : String) :
    (queue.takeWhile fun m => decide (m.tenantId ≠ tenantId)).filter
      (fun m => m.tenantId = tenantId) = [] := by
  rw [List.filter_eq_nil_iff]
  intro m hm
  have hall := List.all_takeWhile (p := fun m : QueueMessage => decide (m.tenantId ≠ tenantId))
    (l := queue)
  simpa using List.all_eq_true.mp hall m hm

theorem pending_of_nil
    (hrest : (l.queue.dropWhile fun m => decide (m.tenantId ≠ tenantId)) = []) :
    (view l tenantId).pending = [] := by
  have hsplit := List.takeWhile_append_dropWhile (p := fun m => decide (m.tenantId ≠ tenantId))
    (l := l.queue)
  have hbefore := filter_before l.queue tenantId
  rw [hrest, List.append_nil] at hsplit
  rwa [hsplit] at hbefore

/-- In a straight queue the rotation leaves every view in its order. -/
theorem filter_rotated (hstraight : straightQueue l.queue tenantId = true)
    (hrest : (l.queue.dropWhile fun m => decide (m.tenantId ≠ tenantId)) = m :: behind) :
    (view l tenantId).pending = m :: behind.filter (fun m => m.tenantId = tenantId) ∧
      ∀ x, (behind ++ l.queue.takeWhile fun m => decide (m.tenantId ≠ tenantId)).filter
        (fun m => m.tenantId = x) =
          if x = tenantId then behind.filter (fun m => m.tenantId = tenantId)
          else (view l x).pending := by
  have hsplit := List.takeWhile_append_dropWhile (p := fun m => decide (m.tenantId ≠ tenantId))
    (l := l.queue)
  have hbefore := filter_before l.queue tenantId
  have htenant : m.tenantId = tenantId := by
    have hhead := List.head?_dropWhile_not (fun m => decide (m.tenantId ≠ tenantId)) l.queue
    rw [hrest] at hhead
    simpa using hhead
  simp only [straightQueue, hrest, List.all_eq_true, decide_eq_true_eq] at hstraight
  have hview : ∀ x, (view l x).pending =
      (l.queue.takeWhile fun m => decide (m.tenantId ≠ tenantId)).filter (fun m => m.tenantId = x) ++
        (m :: behind).filter (fun m => m.tenantId = x) := by
    intro x
    rw [← List.filter_append, ← hrest, hsplit]
    rfl
  constructor
  · rw [hview, hbefore, List.nil_append, List.filter_cons_of_pos (by simpa using htenant)]
  · intro x
    rw [List.filter_append]
    split_ifs with hx
    · rw [hx, hbefore, List.append_nil]
    · have hne : m.tenantId ≠ x := fun heq => hx (heq.symm.trans htenant)
      rw [hview, List.filter_cons_of_neg (by simpa using hne)]
      -- the tenant has messages on one side only
      by_cases hback : behind.filter (fun m => decide (m.tenantId = x)) = []
      · rw [hback, List.nil_append, List.append_nil]
      · obtain ⟨m', hm'⟩ := List.exists_mem_of_ne_nil _ hback
        obtain ⟨hmem', htenant'⟩ := List.mem_filter.mp hm'
        have hfront : (l.queue.takeWhile fun m => decide (m.tenantId ≠ tenantId)).filter
            (fun m => decide (m.tenantId = x)) = [] := by
          rw [List.filter_eq_nil_iff]
          intro m'' hm'' heq
          refine hstraight m'' hm'' m' (List.mem_cons_of_mem m hmem') ?_
          rw [of_decide_eq_true htenant', of_decide_eq_true heq]
        rw [hfront, List.append_nil, List.nil_append]

theorem View.take_cons {v : View} {rest : List QueueMessage} (hnodup : v.ids.Nodup)
    (hpending : v.pending = m :: rest) : (v.take m.taskId).pending = rest := by
  rw [View.ids, hpending, List.map_cons, List.nodup_cons] at hnodup
  simp only [View.take, hpending]
  rw [List.filter_cons_of_neg (by simp), List.filter_eq_self]
  intro m' hm'
  have hne : m'.taskId ≠ m.taskId := fun heq => hnodup.1 (heq ▸ List.mem_map_of_mem hm')
  simpa using hne

/-- `claim_existing_task` erases the one message of the task. -/
theorem filter_erased (hnodup : (view l tenantId).ids.Nodup) (t x : String) :
    (l.queue.eraseP (LocalAdapter.matchesTask tenantId t)).filter (fun m => m.tenantId = x) =
      if x = tenantId then ((view l x).take t).pending else (view l x).pending := by
  split_ifs with hx
  · subst hx
    have herase := List.eraseP_filter (p := LocalAdapter.matchesTask x t)
      (f := fun m => decide (m.tenantId = x)) (l := l.queue)
    have hmatch : (fun m => LocalAdapter.matchesTask x t m && decide (m.tenantId = x)) =
        LocalAdapter.matchesTask x t := by
      funext m
      by_cases hm : m.tenantId = x <;> simp [LocalAdapter.matchesTask, hm]
    rw [hmatch] at herase
    rw [← herase]
    have hown : ∀ m ∈ (view l x).pending, LocalAdapter.matchesTask x t m =
        decide (m.taskId = t) := by
      intro m hm
      have htenant : m.tenantId = x := by simpa using (List.mem_filter.mp hm).2
      simp [LocalAdapter.matchesTask, htenant]
    exact eraseP_eq_filter hnodup hown
  · refine filter_eraseP fun m _ hm => ?_
    simp only [LocalAdapter.matchesTask, Bool.and_eq_true, decide_eq_true_eq] at hm
    simpa [hm.1] using fun heq : tenantId = x => hx heq.symm

end ClaimLoop

end Ajenda.QueueAdapters
