import Ajenda.RedisQueuePayload
import Ajenda.RuntimeWorld

/-!
# Payloads that stay in the queue

Which operations can take the payload of a task out of the pending and processing stores,
which can spend an idempotency key, and what a publication leaves.
-/
namespace Ajenda.RedisQueue
open FiniteTable LuaCjson

/-- The payload of the task is pending or processing. -/
def Store.holds (s : Store) (t : String) : Bool :=
  s.pendingPayloads.has t || s.processingPayloads.has t

def Slot.queued (b : Slot) : Bool := b.pending.isSome || b.processing.isSome

/-- The operations that can take the payload of the task out of both stores. -/
def Op.removes (t : String) : Op → Bool
  | .complete u _ | .cancel u | .fail u _ _ _ | .deadLetter u _ _ _ => u = t
  | _ => false

theorem SlotStep.queued {tenantId t : String} {op : Op} {b b' : Slot}
    (h : SlotStep tenantId t op b b') (hb : b.queued = true) (hop : op.removes t = false) :
    b'.queued = true := by
  cases h with
  | unchanged => exact hb
  | enqueued | enqueuedOnce => rfl
  | retried => cases hb
  | claimed | requeued => simp [Slot.queued]
  | cancelled | completed | failed | deadLettered => simp [Op.removes] at hop

theorem holds_step (cfg : Config) {s : Store} {t : String} {op : Op} (h : s.holds t = true)
    (hop : op.removes t = false) : (step cfg s op).holds t = true :=
  (slot_step s t cfg op).queued h hop

theorem dispatchKeys_step (cfg : Config) {s : Store} {op : Op}
    (hop : ∀ key t p, op ≠ .enqueueIdempotent key t p) :
    (step cfg s op).dispatchKeys = s.dispatchKeys := by
  cases op with
  | enqueueIdempotent key t p => exact absurd rfl (hop key t p)
  | enqueue t p =>
    simp only [step, enqueueScript]
    split_ifs <;> rfl
  | cancel t =>
    simp only [step, cancelPendingTaskScript]
    split_ifs <;> rfl
  | claimNext w =>
    simp only [step, claimNextTaskScript]
    split
    · rfl
    · split
      · rfl
      · split_ifs <;> rfl
  | claimExisting t w =>
    simp only [step, claimExistingTaskScript, Store.expireLease]
    split
    · split
      · rfl
      · split_ifs <;> rfl
    · split
      · rfl
      · split_ifs <;> rfl
  | heartbeat t w =>
    simp only [step, heartbeatOwnerScript, Store.expireLease]
    split
    · rfl
    · split_ifs <;> rfl
  | complete t w =>
    simp only [step, completeOwnerScript]
    split
    · rfl
    · split_ifs <;> rfl
  | fail t w reason failedAt =>
    simp only [step, failOwnerScript]
    split
    · rfl
    · split_ifs
      · rfl
      · split
        · rfl
        · split
          · rfl
          · split <;> rfl
  | release t w =>
    simp only [step, releaseOwnerScript]
    split
    · rfl
    · split_ifs
      · rfl
      · split <;> rfl
  | recover t w =>
    simp only [step, recoverOwnerScript]
    split_ifs
    · rfl
    · split <;> rfl
  | deadLetter t owner reason movedAt =>
    simp only [step, deadLetterScript]
    split
    · rfl
    · split
      · rfl
      · split <;> rfl
  | retryDeadLetter t =>
    simp only [step, retryDeadLetterScript]
    split_ifs
    · rfl
    · rfl
    · split
      · rfl
      · split
        · rfl
        · split <;> rfl
  | leaseExpires t => rfl

end Ajenda.RedisQueue

namespace Ajenda.Runtime
open JsonValue FiniteTable
open RedisQueue (Config Store)

section Publication
variable (cfg : Config) {queue queue' : Store} {dispatch : RuntimeQueueDispatch}

/-- What a publication does to the queue; `ok` is its answer. -/
structure Publishes (queue queue' : Store) (dispatch : RuntimeQueueDispatch) (ok : Bool) :
    Prop where
  holds : ∀ id, queue.holds id = true → queue'.holds id = true
  keys : ∀ key, queue'.dispatchKeys.has key = true → queue.dispatchKeys.has key = true ∨
    (ok = true ∧ ∃ generation, retryGeneration dispatch.payload = .ok generation ∧
      key = idempotencyKey dispatch.id generation)
  delivered : ok = true → (∀ generation, retryGeneration dispatch.payload = .ok generation →
    queue.dispatchKeys.has (idempotencyKey dispatch.id generation) = false) →
    queue'.holds dispatch.taskId = true

theorem Publishes.refused (h : ∀ id, queue.holds id = true → queue'.holds id = true)
    (hkeys : queue'.dispatchKeys = queue.dispatchKeys) :
    Publishes queue queue' dispatch false :=
  ⟨h, fun _ hkey => .inl (hkeys ▸ hkey), fun hok => by cases hok⟩

theorem enqueueGeneration_publishes {generation : ℕ} {ok : Bool}
    (hgeneration : retryGeneration dispatch.payload = .ok generation)
    (h : enqueueGeneration queue dispatch generation = (ok, queue')) :
    Publishes queue queue' dispatch ok := by
  unfold enqueueGeneration RedisQueue.idempotentEnqueueScript at h
  split_ifs at h with hused hprocessing hpending
  · obtain ⟨rfl, rfl⟩ := Prod.mk.inj h
    refine ⟨fun _ hq => hq, fun _ hk => .inl hk, fun _ hfresh => ?_⟩
    rw [hfresh generation hgeneration] at hused
    cases hused
  · obtain ⟨rfl, rfl⟩ := Prod.mk.inj h
    exact .refused (fun _ hq => hq) rfl
  · obtain ⟨rfl, rfl⟩ := Prod.mk.inj h
    exact .refused (fun _ hq => hq) rfl
  · obtain ⟨rfl, rfl⟩ := Prod.mk.inj h
    refine ⟨fun id hq => ?_, fun key hk => ?_, fun _ _ => ?_⟩
    · simp only [Store.holds, Store.pushPending, Table.has_put, Bool.or_eq_true] at hq ⊢
      tauto
    · simp only [Store.pushPending, Table.has_put, Bool.or_eq_true, decide_eq_true_eq] at hk
      rcases hk with rfl | hk
      · exact .inr ⟨rfl, generation, hgeneration, rfl⟩
      · exact .inl hk
    · simp [Store.holds, Store.pushPending, Table.has_put]

theorem retryDeadLetterScript_ok {t value : String}
    (h : RedisQueue.retryDeadLetterScript queue cfg.tenantId t = (.ok value, queue')) :
    queue'.holds t = true := by
  unfold RedisQueue.retryDeadLetterScript at h
  split_ifs at h
  · cases h
  · cases h
  · split at h
    · cases h
    · split at h
      · cases h
      · dsimp only at h
        split at h
        · cases h
        · obtain ⟨-, rfl⟩ := Prod.mk.inj h
          simp [Store.holds, Store.pushPending, Table.has_put]

theorem retryDeadLetterScript_refused {t reason : String}
    (h : RedisQueue.retryDeadLetterScript queue cfg.tenantId t = (.refused reason, queue')) :
    queue' = queue ∧ (reason = "task already pending" ∨ reason = "task already processing" →
      queue.holds t = true) := by
  unfold RedisQueue.retryDeadLetterScript at h
  split_ifs at h with hpending hprocessing
  · obtain ⟨-, rfl⟩ := Prod.mk.inj h
    exact ⟨rfl, fun _ => by simp [Store.holds, hpending]⟩
  · obtain ⟨-, rfl⟩ := Prod.mk.inj h
    exact ⟨rfl, fun _ => by simp [Store.holds, hprocessing]⟩
  · have hreason : ∀ payload, RedisQueue.retryPayload cfg.tenantId t payload = .error reason →
        ¬ (reason = "task already pending" ∨ reason = "task already processing") := by
      intro payload hpayload
      unfold RedisQueue.retryPayload at hpayload
      split at hpayload
      · cases hpayload
        decide
      · split at hpayload
        · cases hpayload
          decide
        · split_ifs at hpayload
          all_goals
            cases hpayload
            decide
    split at h
    · obtain ⟨hr, rfl⟩ := Prod.mk.inj h
      cases hr
      exact ⟨rfl, fun hr => absurd hr (by decide)⟩
    · split at h
      next herror =>
        obtain ⟨hr, rfl⟩ := Prod.mk.inj h
        cases hr
        exact ⟨rfl, fun hr => absurd hr (hreason _ herror)⟩
      · dsimp only at h
        split at h <;> cases h

/-- A publication that is accepted leaves the payload of its task in the queue. -/
theorem publish_publishes {ok : Bool} (h : publish cfg queue dispatch = (ok, queue')) :
    Publishes queue queue' dispatch ok := by
  unfold publish at h
  split at h
  · obtain ⟨rfl, rfl⟩ := Prod.mk.inj h
    exact .refused (fun _ hq => hq) rfl
  next generation hgeneration =>
    split_ifs at h with hzero
    · exact enqueueGeneration_publishes hgeneration h
    · have hstep : ∀ reply q, RedisQueue.retryDeadLetterScript queue cfg.tenantId dispatch.taskId =
          (reply, q) → (∀ id, queue.holds id = true → q.holds id = true) ∧
            q.dispatchKeys = queue.dispatchKeys := by
        intro reply q hq
        have heq : RedisQueue.step cfg queue (.retryDeadLetter dispatch.taskId) = q := by
          simp [RedisQueue.step, hq]
        rw [← heq]
        exact ⟨fun id hid => RedisQueue.holds_step cfg hid rfl,
          RedisQueue.dispatchKeys_step cfg (by simp)⟩
      split at h
      next q hq =>
        obtain ⟨rfl, rfl⟩ := Prod.mk.inj h
        obtain ⟨hholds, hkeys⟩ := hstep _ _ hq
        exact ⟨hholds, fun _ hk => .inl (hkeys ▸ hk),
          fun _ _ => retryDeadLetterScript_ok cfg hq⟩
      next reason q hq =>
        obtain ⟨rfl, hreason⟩ := retryDeadLetterScript_refused cfg hq
        split_ifs at h with hqueued
        · obtain ⟨rfl, rfl⟩ := Prod.mk.inj h
          exact ⟨fun _ hid => hid, fun _ hk => .inl hk, fun _ _ => hreason hqueued⟩
        · obtain ⟨rfl, rfl⟩ := Prod.mk.inj h
          exact .refused (fun _ hid => hid) rfl
        · exact enqueueGeneration_publishes hgeneration h
      next q hq =>
        obtain ⟨rfl, rfl⟩ := Prod.mk.inj h
        obtain ⟨hholds, hkeys⟩ := hstep _ _ hq
        exact .refused hholds hkeys

end Publication
end Ajenda.Runtime
