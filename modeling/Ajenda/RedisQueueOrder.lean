import Ajenda.RedisQueueClaims

/-!
# The order of the Redis queue

Scores come from one counter that only grows, so a message put into the pending set ranks
above all that are there, and a message that nothing moves keeps its rank. A task that waits
is therefore served before every task put back or enqueued after it.
-/
namespace Ajenda.RedisQueue
open FiniteTable LuaCjson TransitionSystem

section Observation

/-- The task whose message a call puts at the back of the pending set. -/
def published (cfg : Config) (s : Store) : Op → Option String
  | .enqueue t p => if (enqueueScript s t p).1.isOk then some t else none
  | .enqueueIdempotent k t p =>
      if (idempotentEnqueueScript s k t p).1.isOk ∧ s.dispatchKeys.has k = false then some t
      else none
  | .release t w => if (releaseOwnerScript s t w).1.isOk then some t else none
  | .recover t w => if (recoverOwnerScript s t w).1.isOk then some t else none
  | .retryDeadLetter t =>
      if (retryDeadLetterScript s cfg.tenantId t).1.isOk then some t else none
  | _ => none

/-- The task a call of `claim_task` returns. -/
def served (cfg : Config) (s : Store) : Op → Option String
  | .claimNext w =>
      if (claimNextTaskScript s w cfg.heartbeatTtlSeconds).1.isOk then s.pendingOrder.first
      else none
  | _ => none

/-- The task a call cancels, dead-letters, releases, recovers or claims by its id. -/
def addressed : Op → Option String
  | .cancel t | .deadLetter t _ _ _ | .release t _ | .recover t _ | .claimExisting t _ => some t
  | _ => none

/-- A call leaves a pending task waiting: it is not served, and no call that names it changes
its place. -/
def LeavesWaiting (cfg : Config) (t : String) (s : Store) (op : Op) : Prop :=
  served cfg s op ≠ some t ∧
    (addressed op = some t → (step cfg s op).pendingOrder.get t = s.pendingOrder.get t)

end Observation

section Step
variable (cfg : Config) (s : Store)

/-- What a call does to the pending set. -/
inductive PendingStep (op : Op) (s' : Store) : Prop
  | same (order : s'.pendingOrder = s.pendingOrder)
      (payloads : s'.pendingPayloads = s.pendingPayloads) (grows : s.sequence ≤ s'.sequence)
      (quiet : published cfg s op = none)
  | push (t : String) (p : Payload) (order : s'.pendingOrder = s.pendingOrder.put t (s.sequence + 1))
      (payloads : s'.pendingPayloads = s.pendingPayloads.put t p)
      (grows : s'.sequence = s.sequence + 1) (by_call : published cfg s op = some t)
      (absent : s.pendingPayloads.has t = false ∨ addressed op = some t)
  | drop (t : String) (order : s'.pendingOrder = s.pendingOrder.del t)
      (payloads : s'.pendingPayloads = s.pendingPayloads.del t) (grows : s.sequence ≤ s'.sequence)
      (quiet : published cfg s op = none)
      (by_call : addressed op = some t ∨ (0 < cfg.heartbeatTtlSeconds → served cfg s op = some t))

/-- The spec of one call: nothing pending changes, or one message is put at the back, or one
pending message leaves because the call names its task or serves it. -/
theorem pendingStep (op : Op) : PendingStep cfg s op (step cfg s op) := by
  cases op with
  | enqueue t p =>
    simp only [step, enqueueScript]
    split
    · rename_i hprocessing
      exact .same rfl rfl le_rfl (by simp [published, enqueueScript, hprocessing, Reply.isOk])
    · split
      · rename_i hprocessing hpending
        refine .same rfl rfl le_rfl ?_
        simp [published, enqueueScript, hprocessing, hpending, Reply.isOk]
      · rename_i hprocessing hpending
        refine .push t p rfl rfl rfl ?_ (.inl (by simpa using hpending))
        simp [published, enqueueScript, hprocessing, hpending, Reply.isOk]
  | enqueueIdempotent k t p =>
    simp only [step, idempotentEnqueueScript]
    split
    · rename_i hkey
      exact .same rfl rfl le_rfl (by simp [published, hkey])
    · split
      · rename_i hkey hprocessing
        refine .same rfl rfl le_rfl ?_
        simp [published, idempotentEnqueueScript, hkey, hprocessing, Reply.isOk]
      · split
        · rename_i hkey hprocessing hpending
          refine .same rfl rfl le_rfl ?_
          simp [published, idempotentEnqueueScript, hkey, hprocessing, hpending, Reply.isOk]
        · rename_i hkey hprocessing hpending
          refine .push t p rfl rfl rfl ?_ (.inl (by simpa using hpending))
          simp [published, idempotentEnqueueScript, hkey, hprocessing, hpending, Reply.isOk]
  | cancel t =>
    simp only [step, cancelPendingTaskScript]
    split
    · exact .same rfl rfl le_rfl rfl
    · exact .drop t rfl rfl le_rfl rfl (.inl rfl)
  | claimNext w =>
    have hcases := claimNextTaskScript_cases s w cfg.heartbeatTtlSeconds
    simp only [step]
    rcases hcases with ⟨-, hsame⟩ | ⟨-, t, raw, hfirst, hclaim⟩ | ⟨httl, -, t, raw, hmoved⟩
    · rw [hsame]
      exact .same rfl rfl le_rfl rfl
    · rw [hclaim]
      refine .drop t rfl rfl le_rfl rfl (.inr fun _ => ?_)
      simp [served, hclaim, Reply.isOk, hfirst]
    · rw [hmoved]
      exact .drop t rfl rfl le_rfl rfl (.inr fun hpos => absurd hpos (not_lt.mpr httl))
  | claimExisting t w =>
    simp only [step, claimExistingTaskScript]
    split
    · split
      · exact .same rfl rfl le_rfl rfl
      · split
        · exact .same rfl rfl le_rfl rfl
        · simp only [Store.expireLease]
          split <;> exact .same rfl rfl le_rfl rfl
    · split
      · exact .same rfl rfl le_rfl rfl
      · split
        · exact .same rfl rfl le_rfl rfl
        · split <;> exact .drop t rfl rfl le_rfl rfl (.inl rfl)
  | heartbeat t w =>
    simp only [step, heartbeatOwnerScript]
    split
    · exact .same rfl rfl le_rfl rfl
    · split
      · exact .same rfl rfl le_rfl rfl
      · simp only [Store.expireLease]
        split <;> exact .same rfl rfl le_rfl rfl
  | complete t w =>
    simp only [step, completeOwnerScript]
    split
    · exact .same rfl rfl le_rfl rfl
    · split
      · exact .same rfl rfl le_rfl rfl
      · split <;> exact .same rfl rfl le_rfl rfl
  | fail t w reason failedAt =>
    simp only [step, failOwnerScript]
    split
    · exact .same rfl rfl le_rfl rfl
    · split
      · exact .same rfl rfl le_rfl rfl
      · split
        · exact .same rfl rfl le_rfl rfl
        · split
          · exact .same rfl rfl le_rfl rfl
          · split
            · exact .same rfl rfl le_rfl rfl
            · exact .same rfl rfl (Nat.le_succ _) rfl
  | release t w =>
    simp only [step]
    cases hlease : s.leases.get t with
    | none =>
      have hquiet : published cfg s (.release t w) = none := by
        simp [published, releaseOwnerScript, hlease, Reply.isOk]
      simp only [releaseOwnerScript, hlease]
      exact .same rfl rfl le_rfl hquiet
    | some owner =>
      by_cases howner : owner = w
      · cases hraw : s.processingPayloads.get t with
        | none =>
          have hquiet : published cfg s (.release t w) = none := by
            simp [published, releaseOwnerScript, hlease, howner, hraw, Reply.isOk]
          simp only [releaseOwnerScript, hlease, howner, hraw, ne_eq, not_true_eq_false, if_false]
          exact .same rfl rfl le_rfl hquiet
        | some raw =>
          have hcall : (releaseOwnerScript s t w).1.isOk = true := by
            simp [releaseOwnerScript, hlease, howner, hraw, Reply.isOk]
          simp only [releaseOwnerScript, hlease, howner, hraw, ne_eq, not_true_eq_false, if_false]
          exact .push t raw rfl rfl rfl (by simp [published, hcall]) (.inr rfl)
      · have hquiet : published cfg s (.release t w) = none := by
          simp [published, releaseOwnerScript, hlease, howner, Reply.isOk]
        simp only [releaseOwnerScript, hlease, ne_eq, howner, not_false_eq_true, if_true]
        exact .same rfl rfl le_rfl hquiet
  | recover t w =>
    have hpush : ∀ raw, (recoverOwnerScript s t w).1.isOk = true → PendingStep cfg s
        (.recover t w) (((s.dropProcessing t).pushPending t raw).dropLease t) := by
      intro raw hcall
      exact .push t raw rfl rfl rfl (by simp [published, hcall]) (.inr rfl)
    have hrefused : (recoverOwnerScript s t w).1.isOk = false →
        PendingStep cfg s (.recover t w) s := by
      intro hcall
      exact .same rfl rfl le_rfl (by simp [published, hcall])
    simp only [step]
    unfold recoverOwnerScript at hpush hrefused ⊢
    split
    · rename_i howner
      rw [if_pos howner] at hrefused
      exact hrefused rfl
    · rename_i howner
      rw [if_neg howner] at hpush hrefused
      split
      · rename_i raw raw' hprocessing hpending
        rw [hprocessing, hpending] at hrefused
        exact hrefused rfl
      · rename_i hprocessing hpending
        rw [hprocessing, hpending] at hrefused
        exact hrefused rfl
      · rename_i raw hprocessing hpending
        rw [hprocessing, hpending] at hpush
        exact hpush raw rfl
      · rename_i raw hprocessing hpending
        rw [hprocessing, hpending] at hpush
        exact hpush raw rfl
  | deadLetter t owner reason movedAt =>
    simp only [step, deadLetterScript]
    split
    · exact .same rfl rfl le_rfl rfl
    · split
      · exact .same rfl rfl le_rfl rfl
      · split <;> exact .drop t rfl rfl (Nat.le_succ _) rfl (.inl rfl)
  | retryDeadLetter t =>
    simp only [step]
    by_cases hpending : s.pendingPayloads.has t = true
    · have hquiet : published cfg s (.retryDeadLetter t) = none := by
        simp [published, retryDeadLetterScript, hpending, Reply.isOk]
      simp only [retryDeadLetterScript, hpending, if_true]
      exact .same rfl rfl le_rfl hquiet
    · by_cases hprocessing : s.processingPayloads.has t = true
      · have hquiet : published cfg s (.retryDeadLetter t) = none := by
          simp [published, retryDeadLetterScript, hpending, hprocessing, Reply.isOk]
        simp only [retryDeadLetterScript, hpending, hprocessing, if_true]
        exact .same rfl rfl le_rfl hquiet
      · cases hdead : s.deadPayloads.get t with
        | none =>
          have hquiet : published cfg s (.retryDeadLetter t) = none := by
            simp [published, retryDeadLetterScript, hpending, hprocessing, hdead, Reply.isOk]
          simp only [retryDeadLetterScript, hpending, hprocessing, hdead]
          exact .same rfl rfl le_rfl hquiet
        | some raw =>
          cases hretry : retryPayload cfg.tenantId t raw with
          | error reason =>
            have hquiet : published cfg s (.retryDeadLetter t) = none := by
              simp [published, retryDeadLetterScript, hpending, hprocessing, hdead, hretry,
                Reply.isOk]
            simp only [retryDeadLetterScript, hpending, hprocessing, hdead, hretry]
            exact .same rfl rfl le_rfl hquiet
          | ok payload =>
            cases hencode : encode payload with
            | none =>
              have hquiet : published cfg s (.retryDeadLetter t) = none := by
                simp [published, retryDeadLetterScript, hpending, hprocessing, hdead, hretry,
                  hencode, Reply.isOk]
              simp only [retryDeadLetterScript, hpending, hprocessing, hdead, hretry, hencode]
              exact .same rfl rfl (Nat.le_succ _) hquiet
            | some again =>
              have hcall : (retryDeadLetterScript s cfg.tenantId t).1.isOk = true := by
                simp [retryDeadLetterScript, hpending, hprocessing, hdead, hretry, hencode,
                  Reply.isOk]
              simp only [retryDeadLetterScript, hpending, hprocessing, hdead, hretry, hencode]
              exact .push t again rfl rfl rfl (by simp [published, hcall])
                (.inl (by simpa using hpending))
  | leaseExpires t => exact .same rfl rfl le_rfl rfl

end Step

section Runs
variable {cfg : Config} {s : Store} {op : Op} {t u : String}

/-- The pending set has the tasks of the pending payloads, with scores the counter has given. -/
structure InLine (s : Store) : Prop where
  keys : ∀ t, s.pendingOrder.has t = s.pendingPayloads.has t
  bound : ∀ t r, s.pendingOrder.get t = some r → r ≤ s.sequence

theorem InLine.empty : InLine .empty := by
  constructor <;> simp [Store.empty]

theorem InLine.step (h : InLine s) (op : Op) : InLine (step cfg s op) := by
  rcases pendingStep cfg s op with ⟨horder, hpayloads, hgrows, -⟩ |
    ⟨t, p, horder, hpayloads, hgrows, -, -⟩ | ⟨t, horder, hpayloads, hgrows, -, -⟩
  · constructor
    · intro u
      rw [horder, hpayloads, h.keys]
    · intro u r hr
      rw [horder] at hr
      exact (h.bound u r hr).trans hgrows
  · constructor
    · intro u
      rw [horder, hpayloads, Table.has_put, Table.has_put, h.keys]
    · intro u r hr
      rw [horder, Table.get_put] at hr
      rw [hgrows]
      split_ifs at hr
      · exact (Option.some.inj hr).ge
      · exact Nat.le_succ_of_le (h.bound u r hr)
  · constructor
    · intro u
      rw [horder, hpayloads, Table.has_del, Table.has_del, h.keys]
    · intro u r hr
      rw [horder, Table.get_del] at hr
      split_ifs at hr
      exact (h.bound u r hr).trans hgrows

/-- A task that a call leaves waiting keeps its score. -/
theorem InLine.keeps (h : InLine s) (httl : 0 < cfg.heartbeatTtlSeconds) {r : ℕ}
    (ht : s.pendingOrder.get t = some r) (hleaves : LeavesWaiting cfg t s op) :
    (RedisQueue.step cfg s op).pendingOrder.get t = some r := by
  by_cases hnamed : addressed op = some t
  · rw [hleaves.2 hnamed, ht]
  · rcases pendingStep cfg s op with ⟨horder, -, -, -⟩ | ⟨u, p, horder, -, -, -, habsent⟩ |
      ⟨u, horder, -, -, -, hcall⟩
    · rw [horder, ht]
    · have hne : t ≠ u := by
        rintro rfl
        rcases habsent with habsent | habsent
        · rw [← h.keys, Table.has_eq_false, ht] at habsent
          cases habsent
        · exact hnamed habsent
      rw [horder, Table.get_put_ne _ _ hne, ht]
    · have hne : t ≠ u := by
        rintro rfl
        rcases hcall with hcall | hcall
        · exact hnamed hcall
        · exact hleaves.1 (hcall httl)
      rw [horder, Table.get_del_ne _ hne, ht]

/-- A score is old or the next one of the counter. -/
theorem score_step {q : ℕ} (hu : (step cfg s op).pendingOrder.get u = some q) :
    s.pendingOrder.get u = some q ∨ q = s.sequence + 1 := by
  rcases pendingStep cfg s op with ⟨horder, -, -, -⟩ | ⟨t, p, horder, -, -, -, -⟩ |
    ⟨t, horder, -, -, -, -⟩
  · rw [horder] at hu
    exact .inl hu
  · rw [horder, Table.get_put] at hu
    split_ifs at hu
    · exact .inr (Option.some.inj hu).symm
    · exact .inl hu
  · rw [horder, Table.get_del] at hu
    split_ifs at hu
    exact .inl hu

/-- `t` is pending, and in front of `u` if that is pending too. -/
def Ahead (t u : String) (s : Store) : Prop :=
  ∃ r, s.pendingOrder.get t = some r ∧ ∀ q, s.pendingOrder.get u = some q → r < q

theorem Ahead.step (hq : InLine s) (httl : 0 < cfg.heartbeatTtlSeconds) (h : Ahead t u s)
    (hleaves : LeavesWaiting cfg t s op) : Ahead t u (RedisQueue.step cfg s op) := by
  obtain ⟨r, hr, hlt⟩ := h
  refine ⟨r, hq.keeps httl hr hleaves, fun q hget => ?_⟩
  rcases score_step hget with hold | hnew
  · exact hlt q hold
  · exact hnew ▸ Nat.lt_succ_of_le (hq.bound t r hr)

instance (cfg : Config) (t : String) (s : Store) (op : Op) : Decidable (LeavesWaiting cfg t s op) :=
  inferInstanceAs (Decidable (_ ∧ (_ → _)))

end Runs

end Ajenda.RedisQueue
