import Ajenda.RedisQueueRun

/-!
# The representation invariant of the Redis queue

Every script is a composition of a few moves on the keys. Each move keeps the invariant
under its own condition, so each script does, except the dead-letter script where encoding
the envelope raises while the lease key of its caller is live.
-/
namespace Ajenda.RedisQueue
open FiniteTable LuaCjson TransitionSystem

theorem Consistent.empty : Consistent Store.empty := by
  constructor <;> simp [Store.empty, Store.score]

section Scores
variable (s : Store) (t : String) (p : Payload) (i : String ⊕ String)

theorem Store.score_dropPending :
    (s.dropPending t).score i = if i = .inl t then none else s.score i := by
  cases i <;> simp [score, dropPending, Table.get_del]

theorem Store.score_dropDead :
    (s.dropDead t).score i = if i = .inr t then none else s.score i := by
  cases i <;> simp [score, dropDead, Table.get_del]

theorem Store.score_pushPending :
    (s.pushPending t p).score i = if i = .inl t then some (s.sequence + 1) else s.score i := by
  cases i <;> simp [score, pushPending, Table.get_put]

theorem Store.score_pushDead :
    (s.pushDead t p).score i = if i = .inr t then some (s.sequence + 1) else s.score i := by
  cases i <;> simp [score, pushDead, Table.get_put]

end Scores

section Moves
variable {s : Store} (h : Consistent s) (t : String)
include h

/-- A new score above the counter, given to one member, collides with no other. -/
theorem Consistent.newScore {s' : Store} (k : String ⊕ String)
    (hseq : s'.sequence = s.sequence + 1)
    (hscore : ∀ i, s'.score i = if i = k then some (s.sequence + 1) else s.score i) :
    (∀ i r, s'.score i = some r → r ≤ s'.sequence) ∧
      ∀ i j r, s'.score i = some r → s'.score j = some r → i = j := by
  have hlt : ∀ i r, s.score i = some r → r < s.sequence + 1 := fun i r hr =>
    Nat.lt_succ_of_le (h.scoreLe i r hr)
  simp only [hscore, hseq]
  constructor
  · intro i r hr
    split_ifs at hr with hi
    · exact (Option.some.inj hr).ge
    · exact (hlt i r hr).le
  · intro i j r hr hq
    split_ifs at hr hq with hi hj hj
    · rw [hi, hj]
    · exact absurd (Option.some.inj hr) (hlt j r hq).ne'
    · exact absurd (Option.some.inj hq) (hlt i r hr).ne'
    · exact h.scoreInj i j r hr hq

/-- Removing members keeps the scores of the others. -/
theorem Consistent.oldScores (s' : Store) (hseq : s'.sequence = s.sequence)
    (hscore : ∀ i r, s'.score i = some r → s.score i = some r) :
    (∀ i r, s'.score i = some r → r ≤ s'.sequence) ∧
      ∀ i j r, s'.score i = some r → s'.score j = some r → i = j :=
  ⟨fun i r hr => hseq ▸ h.scoreLe i r (hscore i r hr),
    fun i j r hr hq => h.scoreInj i j r (hscore i r hr) (hscore j r hq)⟩

theorem Consistent.bumpSequence : Consistent { s with sequence := s.sequence + 1 } where
  pendingKeys := h.pendingKeys
  deadKeys := h.deadKeys
  disjoint := h.disjoint
  leased := h.leased
  scoreLe i r hr := Nat.le_succ_of_le (h.scoreLe i r hr)
  scoreInj := h.scoreInj

theorem Consistent.dropLease : Consistent (s.dropLease t) where
  pendingKeys := h.pendingKeys
  deadKeys := h.deadKeys
  disjoint := h.disjoint
  leased u hu := by
    simp only [Store.dropLease, Table.has_del, Bool.and_eq_true] at hu
    exact h.leased u hu.2
  scoreLe := h.scoreLe
  scoreInj := h.scoreInj

theorem Consistent.putLease (ht : s.processingPayloads.has t = true) (w : String) :
    Consistent { s with leases := s.leases.put t w } where
  pendingKeys := h.pendingKeys
  deadKeys := h.deadKeys
  disjoint := h.disjoint
  leased u hu := by
    simp only [Table.has_put, Bool.or_eq_true, decide_eq_true_eq] at hu
    rcases hu with rfl | hu
    · exact ht
    · exact h.leased u hu
  scoreLe := h.scoreLe
  scoreInj := h.scoreInj

theorem Consistent.dropPending : Consistent (s.dropPending t) := by
  obtain ⟨hle, hinj⟩ := h.oldScores (s.dropPending t) rfl fun i r hr => by
    rw [Store.score_dropPending] at hr
    split_ifs at hr
    exact hr
  refine ⟨fun u => ?_, h.deadKeys, fun u hu => ?_, h.leased, hle, hinj⟩
  · simp only [Store.dropPending, Table.has_del, h.pendingKeys u]
  · simp only [Store.dropPending, Table.has_del, Bool.and_eq_true] at hu
    exact h.disjoint u ⟨hu.1.2, hu.2⟩

theorem Consistent.dropDead : Consistent (s.dropDead t) := by
  obtain ⟨hle, hinj⟩ := h.oldScores (s.dropDead t) rfl fun i r hr => by
    rw [Store.score_dropDead] at hr
    split_ifs at hr
    exact hr
  refine ⟨h.pendingKeys, fun u => ?_, h.disjoint, h.leased, hle, hinj⟩
  simp only [Store.dropDead, Table.has_del, h.deadKeys u]

theorem Consistent.pushPending (ht : s.processingPayloads.has t = false) (p : Payload) :
    Consistent (s.pushPending t p) := by
  obtain ⟨hle, hinj⟩ := h.newScore (.inl t) rfl (s.score_pushPending t p)
  refine ⟨fun u => ?_, h.deadKeys, fun u hu => ?_, h.leased, hle, hinj⟩
  · simp only [Store.pushPending, Table.has_put, h.pendingKeys u]
  · simp only [Store.pushPending, Table.has_put, Bool.or_eq_true, decide_eq_true_eq] at hu
    rcases hu with ⟨rfl | hp, hq⟩
    · simp [ht] at hq
    · exact h.disjoint u ⟨hp, hq⟩

theorem Consistent.pushDead (p : Payload) : Consistent (s.pushDead t p) := by
  obtain ⟨hle, hinj⟩ := h.newScore (.inr t) rfl (s.score_pushDead t p)
  refine ⟨h.pendingKeys, fun u => ?_, h.disjoint, h.leased, hle, hinj⟩
  simp only [Store.pushDead, Table.has_put, h.deadKeys u]

/-- A payload may leave processing when no lease key is left on it. -/
theorem Consistent.dropProcessing (ht : s.leases.has t = false) :
    Consistent (s.dropProcessing t) where
  pendingKeys := h.pendingKeys
  deadKeys := h.deadKeys
  disjoint u hu := by
    simp only [Store.dropProcessing, Table.has_del, Bool.and_eq_true] at hu
    exact h.disjoint u ⟨hu.1, hu.2.2⟩
  leased u hu := by
    have hut : u ≠ t := by
      rintro rfl
      simp [Store.dropProcessing, ht] at hu
    simpa [Store.dropProcessing, Table.has_del, hut] using h.leased u hu
  scoreLe := h.scoreLe
  scoreInj := h.scoreInj

theorem Consistent.leaveProcessing : Consistent ((s.dropProcessing t).dropLease t) :=
  (h.dropLease t).dropProcessing t (by simp [Store.dropLease, Table.has_del])

theorem Consistent.requeue (p : Payload) :
    Consistent (((s.dropProcessing t).pushPending t p).dropLease t) :=
  (h.leaveProcessing t).pushPending t
    (by simp [Store.dropProcessing, Store.dropLease, Table.has_del]) p

theorem Consistent.moveToProcessing (p : Payload) : Consistent (s.moveToProcessing t p) := by
  have hd := h.dropPending t
  refine ⟨hd.pendingKeys, hd.deadKeys, fun u hu => ?_, fun u hu => ?_, hd.scoreLe, hd.scoreInj⟩
  · simp only [Store.moveToProcessing, Store.dropPending, Table.has_put, Table.has_del,
      Bool.and_eq_true, Bool.or_eq_true, Bool.not_eq_true', decide_eq_false_iff_not,
      decide_eq_true_eq] at hu
    exact h.disjoint u ⟨hu.1.2, hu.2.resolve_left hu.1.1⟩
  · have := h.leased u hu
    simp [Store.moveToProcessing, Store.dropPending, Table.has_put, this]

theorem Consistent.claim (p : Payload) (w : String) :
    Consistent { s.moveToProcessing t p with
      leases := (s.moveToProcessing t p).leases.put t w } :=
  (h.moveToProcessing t p).putLease t (by simp [Store.moveToProcessing, Table.has_put]) w

theorem Consistent.expireLease (ttl : ℤ) : Consistent (s.expireLease t ttl) := by
  unfold Store.expireLease
  split_ifs
  · exact h
  · exact h.dropLease t

end Moves

section Scripts
variable {s : Store} (h : Consistent s) (cfg : Config) (t : String)
include h

theorem Consistent.enqueueScript (p : Payload) : Consistent (enqueueScript s t p).2 := by
  unfold RedisQueue.enqueueScript
  split_ifs with hp
  · exact h
  · exact h
  · exact h.pushPending t (by simpa using hp) p

theorem Consistent.idempotentEnqueueScript (k : String) (p : Payload) :
    Consistent (idempotentEnqueueScript s k t p).2 := by
  unfold RedisQueue.idempotentEnqueueScript
  split_ifs with hk hp
  · exact h
  · exact h
  · exact h
  · have hq := h.pushPending t (by simpa using hp) p
    exact ⟨hq.pendingKeys, hq.deadKeys, hq.disjoint, hq.leased, hq.scoreLe, hq.scoreInj⟩

theorem Consistent.cancelPendingTaskScript : Consistent (cancelPendingTaskScript s t).2 := by
  unfold RedisQueue.cancelPendingTaskScript
  split_ifs
  · exact h
  · exact h.dropPending t

theorem Consistent.claimNextTaskScript (w : String) (ttl : ℤ) :
    Consistent (claimNextTaskScript s w ttl).2 := by
  unfold RedisQueue.claimNextTaskScript
  split
  · exact h
  next u _ =>
    split
    · exact h
    next p _ =>
      split_ifs
      · exact h
      · exact h.claim u p w
      · exact h.moveToProcessing u p

theorem Consistent.claimExistingTaskScript (w : String) (ttl : ℤ) :
    Consistent (claimExistingTaskScript s t w ttl).2 := by
  unfold RedisQueue.claimExistingTaskScript
  split
  · split
    · exact h
    · split_ifs
      · exact h
      · exact h.expireLease t ttl
  · split
    · exact h
    next p _ =>
      split_ifs
      · exact h
      · exact h.claim t p w
      · exact h.moveToProcessing t p

theorem Consistent.heartbeatOwnerScript (w : String) (ttl : ℤ) :
    Consistent (heartbeatOwnerScript s t w ttl).2 := by
  unfold RedisQueue.heartbeatOwnerScript
  split
  · exact h
  · split_ifs
    · exact h
    · exact h.expireLease t ttl

theorem Consistent.completeOwnerScript (w : String) :
    Consistent (completeOwnerScript s t w).2 := by
  unfold RedisQueue.completeOwnerScript
  split
  · exact h
  · split_ifs
    · exact h
    · exact h.leaveProcessing t
    · exact h

theorem Consistent.failOwnerScript (w reason failedAt : String) :
    Consistent (failOwnerScript s t w reason failedAt).2 := by
  unfold RedisQueue.failOwnerScript
  split
  · exact h
  · split_ifs
    · exact h
    · split
      · exact h
      · split
        · exact h
        · split
          · exact h
          next envelope _ => exact (h.leaveProcessing t).pushDead t envelope

theorem Consistent.releaseOwnerScript (w : String) :
    Consistent (releaseOwnerScript s t w).2 := by
  unfold RedisQueue.releaseOwnerScript
  split
  · exact h
  · split_ifs
    · exact h
    · split
      · exact h
      next p _ => exact h.requeue t p

theorem Consistent.recoverOwnerScript (w : String) :
    Consistent (recoverOwnerScript s t w).2 := by
  unfold RedisQueue.recoverOwnerScript
  split_ifs
  · exact h
  · split
    · exact h
    · exact h
    next p _ _ => exact h.requeue t p
    next p _ _ => exact h.requeue t p

theorem Consistent.retryDeadLetterScript (tenantId : String) :
    Consistent (retryDeadLetterScript s tenantId t).2 := by
  unfold RedisQueue.retryDeadLetterScript
  split_ifs with _ hp
  · exact h
  · exact h
  · split
    · exact h
    · split
      · exact h
      · split
        · exact (h.dropDead t).bumpSequence
        next p _ => exact (h.dropDead t).pushPending t (by simpa [Store.dropDead] using hp) p

/-- The dead-letter script breaks the invariant exactly when encoding raises under a live
lease: the payload is gone and the lease key is still there. -/
theorem Consistent.deadLetterScript_iff (owner reason movedAt : String) :
    Consistent (deadLetterScript s cfg.tenantId t owner reason movedAt).2 ↔
      EncodesOwned cfg s (.deadLetter t owner reason movedAt) := by
  unfold RedisQueue.deadLetterScript
  simp only [EncodesOwned]
  cases hd : deadLetterDenied s t owner with
  | some denied => simp [h]
  | none =>
    cases hp : deadLetterPayload cfg.tenantId t (s.processingPayloads.get t)
      (s.pendingPayloads.get t) with
    | error refusal => simp [h]
    | ok payload =>
      cases he : encode (deadLetterEnvelope t owner reason movedAt payload) with
      | some envelope =>
        simp only [he]
        refine iff_of_true (((h.leaveProcessing t).dropPending t).pushDead t envelope) ?_
        rintro _ _ _ ⟨⟩
        simp [he]
      | none =>
        simp only [he]
        constructor
        · intro hc hl
          have hgone := hc.leased t hl
          simp [Store.dropPending, Store.dropProcessing, Table.has_del] at hgone
        · intro hg
          refine ((h.dropProcessing t ?_).dropPending t).bumpSequence
          by_contra hl
          simpa [he] using hg (by simpa using hl) trivial payload rfl

/-- One step keeps the invariant exactly under `EncodesOwned`. -/
theorem Consistent.step_iff (op : Op) : Consistent (step cfg s op) ↔ EncodesOwned cfg s op := by
  cases op with
  | enqueue t p => exact iff_of_true (h.enqueueScript t p) trivial
  | enqueueIdempotent k t p => exact iff_of_true (h.idempotentEnqueueScript t k p) trivial
  | cancel t => exact iff_of_true (h.cancelPendingTaskScript t) trivial
  | claimNext w => exact iff_of_true (h.claimNextTaskScript w _) trivial
  | claimExisting t w => exact iff_of_true (h.claimExistingTaskScript t w _) trivial
  | heartbeat t w => exact iff_of_true (h.heartbeatOwnerScript t w _) trivial
  | complete t w => exact iff_of_true (h.completeOwnerScript t w) trivial
  | fail t w reason failedAt => exact iff_of_true (h.failOwnerScript t w reason failedAt) trivial
  | release t w => exact iff_of_true (h.releaseOwnerScript t w) trivial
  | recover t w => exact iff_of_true (h.recoverOwnerScript t w) trivial
  | deadLetter t owner reason movedAt => exact h.deadLetterScript_iff cfg t owner reason movedAt
  | retryDeadLetter t => exact iff_of_true (h.retryDeadLetterScript t _) trivial
  | leaseExpires t => exact iff_of_true (h.dropLease t) trivial

end Scripts

/-- What `claim_next` may not answer in a consistent store. -/
def ClaimNextSound (cfg : Config) (s : Store) : Prop :=
  ∀ w, (claimNextTaskScript s w cfg.heartbeatTtlSeconds).1 ≠
      .refused "pending index is missing payload" ∧
    (claimNextTaskScript s w cfg.heartbeatTtlSeconds).1 ≠
      .refused "task already claimed by different worker"

theorem Consistent.claimNextSound {s : Store} (h : Consistent s) (cfg : Config) :
    ClaimNextSound cfg s := by
  intro w
  unfold RedisQueue.claimNextTaskScript
  cases hf : s.pendingOrder.first with
  | none => simp
  | some t =>
    obtain ⟨r, hr⟩ := RankedSet.get_of_first hf
    have hp : s.pendingPayloads.has t = true := by
      rw [← h.pendingKeys t]
      exact Table.has_iff.mpr ⟨r, hr⟩
    have hl : s.leases.has t = false := by
      by_contra hl
      exact h.disjoint t ⟨hp, h.leased t (by simpa using hl)⟩
    obtain ⟨p, hp⟩ := Table.has_iff.mp hp
    simp only [hp, hl]
    split_ifs <;> simp_all

/-- Along a run from a migrated empty tenant the invariant holds, and `claim_next` answers
neither of the two refusals, exactly as long as every owned dead-letter call meets a payload
it can encode. -/
theorem representation_invariant_iff (cfg : Config) (ops : List Op) :
    (∀ n, Consistent (exec (step cfg) .empty (ops.take n)) ∧
        ClaimNextSound cfg (exec (step cfg) .empty (ops.take n))) ↔
      Guarded (step cfg) (EncodesOwned cfg) .empty ops := by
  rw [← prefixes_iff_guarded (fun s op h => h.step_iff cfg op) Consistent.empty]
  exact forall_congr' fun n => ⟨And.left, fun h => ⟨h, h.claimNextSound cfg⟩⟩

/-- A task whose payload holds an integer beyond the double range is claimed, dead-lettered
by its owner and published again. -/
def hugeNumberRun : List Op :=
  let message := encodeMessage ⟨"tenant", "task", "mission", none, none,
    [("n", .num (.finite (10 ^ 309)))], "2024-01-01T00:00:00+00:00"⟩
  [.enqueue "task" message, .claimNext "worker", .deadLetter "task" "worker" "failed" "now",
    .enqueue "task" message]

theorem representation_invariant_fails :
    ¬ Consistent (exec (step ⟨"tenant", 30⟩) .empty (hugeNumberRun.take 3)) ∧
      (claimNextTaskScript (exec (step ⟨"tenant", 30⟩) .empty hugeNumberRun) "other" 30).1 =
        .refused "task already claimed by different worker" := by
  refine ⟨fun h => ?_, by decide +kernel⟩
  have hleased : (exec (step ⟨"tenant", 30⟩) .empty (hugeNumberRun.take 3)).leases.has "task" =
    true := by decide +kernel
  have hgone : (exec (step ⟨"tenant", 30⟩) .empty
    (hugeNumberRun.take 3)).processingPayloads.has "task" = false := by decide +kernel
  exact absurd (h.leased "task" hleased) (by rw [hgone]; decide)

end Ajenda.RedisQueue
