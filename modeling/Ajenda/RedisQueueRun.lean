import Ajenda.RedisQueueScripts
import Ajenda.TransitionSystem

/-!
# Runs of the Redis queue

Every script of the adapter with its arguments is one label, and so is the expiry of a
lease key. A run is any list of labels: the scripts are atomic, so every interleaving of
any number of callers is such a list.
-/
namespace Ajenda.RedisQueue
open FiniteTable LuaCjson TransitionSystem

structure Config where
  tenantId : String
  heartbeatTtlSeconds : ℤ

inductive Op
  | enqueue (taskId : String) (payload : Payload)
  | enqueueIdempotent (idempotencyKey taskId : String) (payload : Payload)
  | cancel (taskId : String)
  | claimNext (workerId : String)
  | claimExisting (taskId workerId : String)
  | heartbeat (taskId workerId : String)
  | complete (taskId workerId : String)
  | fail (taskId workerId reason failedAt : String)
  | release (taskId workerId : String)
  | recover (taskId workerId : String)
  | deadLetter (taskId expectedOwner reason movedAt : String)
  | retryDeadLetter (taskId : String)
  | leaseExpires (taskId : String)

/-- The store one operation leaves. -/
def step (cfg : Config) (s : Store) : Op → Store
  | .enqueue t p => (enqueueScript s t p).2
  | .enqueueIdempotent k t p => (idempotentEnqueueScript s k t p).2
  | .cancel t => (cancelPendingTaskScript s t).2
  | .claimNext w => (claimNextTaskScript s w cfg.heartbeatTtlSeconds).2
  | .claimExisting t w => (claimExistingTaskScript s t w cfg.heartbeatTtlSeconds).2
  | .heartbeat t w => (heartbeatOwnerScript s t w cfg.heartbeatTtlSeconds).2
  | .complete t w => (completeOwnerScript s t w).2
  | .fail t w reason failedAt => (failOwnerScript s t w reason failedAt).2
  | .release t w => (releaseOwnerScript s t w).2
  | .recover t w => (recoverOwnerScript s t w).2
  | .deadLetter t owner reason movedAt =>
      (deadLetterScript s cfg.tenantId t owner reason movedAt).2
  | .retryDeadLetter t => (retryDeadLetterScript s cfg.tenantId t).2
  | .leaseExpires t => s.dropLease t

/-- The score of a member of the pending (`inl`) or the dead-letter (`inr`) sorted set. -/
def Store.score (s : Store) : String ⊕ String → Option ℕ
  | .inl t => s.pendingOrder.get t
  | .inr t => s.deadOrder.get t

/-- The representation invariant of one tenant's keys. -/
structure Consistent (s : Store) : Prop where
  pendingKeys : ∀ t, s.pendingOrder.has t = s.pendingPayloads.has t
  deadKeys : ∀ t, s.deadOrder.has t = s.deadPayloads.has t
  disjoint : ∀ t, ¬ (s.pendingPayloads.has t = true ∧ s.processingPayloads.has t = true)
  leased : ∀ t, s.leases.has t = true → s.processingPayloads.has t = true
  scoreLe : ∀ i r, s.score i = some r → r ≤ s.sequence
  scoreInj : ∀ i j r, s.score i = some r → s.score j = some r → i = j

/-- A dead-letter call by the worker whose lease key is live meets a payload whose envelope
cjson can encode. -/
def EncodesOwned (cfg : Config) (s : Store) : Op → Prop
  | .deadLetter t owner reason movedAt =>
      s.leases.has t = true → deadLetterDenied s t owner = none →
        ∀ payload, deadLetterPayload cfg.tenantId t (s.processingPayloads.get t)
            (s.pendingPayloads.get t) = .ok payload →
          (encode (deadLetterEnvelope t owner reason movedAt payload)).isSome
  | _ => True

end Ajenda.RedisQueue
