import Ajenda.RedisQueuePayload

/-!
# Claims of the Redis queue and their owners

A claim of a task is opened by the claim call that moves its payload to processing and stays
open until the payload leaves processing. Ownership is the lease key: only a claim writes it,
and every call that hands a task back deletes it. The runs interleave the calls of any number
of workers and of the maintainer with the expiry of lease keys.
-/
namespace Ajenda.RedisQueue
open FiniteTable LuaCjson TransitionSystem

def Reply.isOk {α : Type} : Reply α → Bool
  | .ok _ => true
  | _ => false

/-- The call reports success to its caller. -/
def succeeds (cfg : Config) (s : Store) : Op → Bool
  | .enqueue t p => (enqueueScript s t p).1.isOk
  | .enqueueIdempotent k t p => (idempotentEnqueueScript s k t p).1.isOk
  | .cancel t => (cancelPendingTaskScript s t).1.isOk
  | .claimNext w => (claimNextTaskScript s w cfg.heartbeatTtlSeconds).1.isOk
  | .claimExisting t w => (claimExistingTaskScript s t w cfg.heartbeatTtlSeconds).1.isOk
  | .heartbeat t w => (heartbeatOwnerScript s t w cfg.heartbeatTtlSeconds).1.isOk
  | .complete t w => (completeOwnerScript s t w).1.isOk
  | .fail t w reason failedAt => (failOwnerScript s t w reason failedAt).1.isOk
  | .release t w => (releaseOwnerScript s t w).1.isOk
  | .recover t w => (recoverOwnerScript s t w).1.isOk
  | .deadLetter t owner reason movedAt =>
      (deadLetterScript s cfg.tenantId t owner reason movedAt).1.isOk
  | .retryDeadLetter t => (retryDeadLetterScript s cfg.tenantId t).1.isOk
  | .leaseExpires _ => true

/-- The task and the worker of a call that asks for the task. -/
def claimant (s : Store) : Op → Option (String × String)
  | .claimNext w => s.pendingOrder.first.map (·, w)
  | .claimExisting t w => some (t, w)
  | _ => none

/-- The task and the worker of a call that only the owner of the task may make. -/
def ownerCall : Op → Option (String × String)
  | .heartbeat t w | .complete t w | .fail t w _ _ | .release t w => some (t, w)
  | _ => none

/-- The task a call gives back to the queue or to the dead-letter store. -/
def handedBack : Op → Option String
  | .release t _ | .recover t _ | .deadLetter t _ _ _ => some t
  | _ => none

/-- The task a call disposes of. -/
def disposed : Op → Option String
  | .complete t _ | .fail t _ _ _ => some t
  | op => handedBack op

/-- `w` claims the task `t`. -/
def claims (cfg : Config) (t w : String) (s : Store) (op : Op) : Bool :=
  claimant s op = some (t, w) && succeeds cfg s op

/-- A claim of the task `t` is open. -/
def claimOpen (t : String) (s : Store) : Bool := s.processingPayloads.has t

/-- A successful claim moves the payload of `t` to processing. -/
def opens (cfg : Config) (t : String) (s : Store) (op : Op) : Bool :=
  (claimant s op).any (·.1 = t) && succeeds cfg s op && !claimOpen t s

/-- A disposition of `t` succeeds while a claim of `t` is open. -/
def closes (cfg : Config) (t : String) (s : Store) (op : Op) : Bool :=
  disposed op = some t && succeeds cfg s op && claimOpen t s

theorem leases_expireLease {s : Store} {t w u : String} {ttl : ℤ}
    (hlease : (s.expireLease u ttl).leases.get t = some w) : s.leases.get t = some w := by
  unfold Store.expireLease at hlease
  split_ifs at hlease
  · exact hlease
  · simp only [Store.dropLease, Table.get_del] at hlease
    split_ifs at hlease
    exact hlease

/-- Only a claim moves a payload to processing. -/
theorem SlotStep.claim_of_open {tenantId t : String} {op : Op} {s s' : Store}
    (h : SlotStep tenantId t op (s.slot t) (s'.slot t)) (hafter : claimOpen t s' = true)
    (hbefore : claimOpen t s ≠ true) :
    (∃ w, op = .claimNext w) ∨ ∃ w, op = .claimExisting t w := by
  have hb : (s.slot t).processing = none := by
    simpa [claimOpen, Table.has, Store.slot] using hbefore
  have ha : (s'.slot t).processing ≠ none := by
    simpa [claimOpen, Table.has, Store.slot, Option.isSome_iff_ne_none] using hafter
  generalize s.slot t = b at h hb
  generalize s'.slot t = b' at h ha
  cases h with
  | claimed raw processing dead hop =>
    rcases hop with rfl | rfl
    · exact .inl ⟨_, rfl⟩
    · exact .inr ⟨_, rfl⟩
  | unchanged => exact absurd hb ha
  | _ => simp_all

section Scripts
variable {s : Store} {t w : String}

/-- The lease key of `t` is deleted, and its payload has left processing. -/
def Closed (t : String) (s : Store) : Prop :=
  s.leases.get t = none ∧ claimOpen t s = false

theorem closed_dropLease (s : Store) (t : String) (h : s.processingPayloads.get t = none) :
    Closed t (s.dropLease t) :=
  ⟨Table.get_del_self _ _, by simp [claimOpen, Store.dropLease, Table.has, h]⟩

theorem heartbeatOwnerScript_ok {ttl : ℤ} (h : (heartbeatOwnerScript s t w ttl).1.isOk = true) :
    s.leases.get t = some w := by
  unfold heartbeatOwnerScript at h
  cases hlease : s.leases.get t with
  | none => simp [hlease, Reply.isOk] at h
  | some owner =>
    by_cases howner : owner = w
    · rw [howner]
    · simp [hlease, howner, Reply.isOk] at h

theorem completeOwnerScript_ok (h : (completeOwnerScript s t w).1.isOk = true) :
    s.leases.get t = some w ∧ claimOpen t s = true ∧ Closed t (completeOwnerScript s t w).2 := by
  unfold completeOwnerScript at h ⊢
  cases hlease : s.leases.get t with
  | none => simp [hlease, Reply.isOk] at h
  | some owner =>
    by_cases howner : owner = w
    · by_cases hopen : s.processingPayloads.has t = true
      · have hclosed := closed_dropLease (s.dropProcessing t) t (by simp [Store.dropProcessing])
        simpa [howner, hopen, claimOpen] using hclosed
      · simp [hlease, howner, hopen, Reply.isOk] at h
    · simp [hlease, howner, Reply.isOk] at h

theorem failOwnerScript_ok {reason failedAt : String}
    (h : (failOwnerScript s t w reason failedAt).1.isOk = true) :
    s.leases.get t = some w ∧ claimOpen t s = true ∧
      Closed t (failOwnerScript s t w reason failedAt).2 := by
  unfold failOwnerScript at h ⊢
  cases hlease : s.leases.get t with
  | none => simp [hlease, Reply.isOk] at h
  | some owner =>
    by_cases howner : owner = w
    · cases hraw : s.processingPayloads.get t with
      | none => simp [hlease, howner, hraw, Reply.isOk] at h
      | some raw =>
        have hopen : claimOpen t s = true := by simp [claimOpen, Table.has, hraw]
        cases hdecode : decodeTable raw with
        | none => simp [hlease, howner, hraw, hdecode, Reply.isOk] at h
        | some payload =>
          cases hencode : encode (failEnvelope t w reason failedAt payload) with
          | none => simp [hlease, howner, hraw, hdecode, hencode, Reply.isOk] at h
          | some envelope =>
            have hclosed := closed_dropLease ((s.dropProcessing t).pushDead t envelope) t
              (by simp [Store.dropProcessing, Store.pushDead])
            simpa [howner, hdecode, hencode, hopen] using hclosed
    · simp [hlease, howner, Reply.isOk] at h

theorem closed_requeue (s : Store) (t : String) (raw : Payload) :
    Closed t (((s.dropProcessing t).pushPending t raw).dropLease t) :=
  closed_dropLease _ t (by simp [Store.dropProcessing, Store.pushPending])

theorem releaseOwnerScript_ok (h : (releaseOwnerScript s t w).1.isOk = true) :
    s.leases.get t = some w ∧ claimOpen t s = true ∧ Closed t (releaseOwnerScript s t w).2 := by
  unfold releaseOwnerScript at h ⊢
  cases hlease : s.leases.get t with
  | none => simp [hlease, Reply.isOk] at h
  | some owner =>
    by_cases howner : owner = w
    · cases hraw : s.processingPayloads.get t with
      | none => simp [hlease, howner, hraw, Reply.isOk] at h
      | some raw =>
        have hopen : claimOpen t s = true := by simp [claimOpen, Table.has, hraw]
        simpa [howner, hopen] using closed_requeue s t raw
    · simp [hlease, howner, Reply.isOk] at h

theorem recoverOwnerScript_ok (h : (recoverOwnerScript s t w).1.isOk = true) :
    Closed t (recoverOwnerScript s t w).2 := by
  unfold recoverOwnerScript at h ⊢
  by_cases hother : ∃ owner, s.leases.get t = some owner ∧ owner ≠ w
  · simp [hother, Reply.isOk] at h
  · simp only [if_neg hother] at h ⊢
    cases hprocessing : s.processingPayloads.get t with
    | none =>
      cases hpending : s.pendingPayloads.get t with
      | none => simp [hprocessing, hpending, Reply.isOk] at h
      | some raw => exact closed_requeue s t raw
    | some raw =>
      cases hpending : s.pendingPayloads.get t with
      | none => exact closed_requeue s t raw
      | some _ => simp [hprocessing, hpending, Reply.isOk] at h

theorem deadLetterScript_ok {tenantId owner reason movedAt : String}
    (h : (deadLetterScript s tenantId t owner reason movedAt).1.isOk = true) :
    Closed t (deadLetterScript s tenantId t owner reason movedAt).2 := by
  unfold deadLetterScript at h ⊢
  cases hdenied : deadLetterDenied s t owner with
  | some denied => simp [hdenied, Reply.isOk] at h
  | none =>
    cases hpayload : deadLetterPayload tenantId t (s.processingPayloads.get t)
        (s.pendingPayloads.get t) with
    | error refusal => simp [hdenied, hpayload, Reply.isOk] at h
    | ok payload =>
      cases hencode : encode (deadLetterEnvelope t owner reason movedAt payload) with
      | none => simp [hdenied, hpayload, hencode, Reply.isOk] at h
      | some envelope =>
        have hclosed := closed_dropLease (((s.dropProcessing t).dropPending t).pushDead t envelope) t
          (by simp [Store.dropProcessing, Store.dropPending, Store.pushDead])
        simpa [hencode] using hclosed

/-- The store after a successful claim of `t` by `w`. -/
def Store.claimed (s : Store) (t : String) (raw : Payload) (w : String) : Store :=
  { s.moveToProcessing t raw with leases := (s.moveToProcessing t raw).leases.put t w }

theorem leases_claimed (u : String) (raw : Payload) : (s.claimed t raw w).leases.get u =
    if u = t then some w else s.leases.get u := by
  simp [Store.claimed, Store.moveToProcessing, Store.dropPending, Table.get_put]

theorem claimOpen_claimed {u : String} {raw : Payload} (h : claimOpen u (s.claimed t raw w) = true) :
    u = t ∨ claimOpen u s = true := by
  simpa [claimOpen, Store.claimed, Store.moveToProcessing, Store.dropPending, Table.has_put] using h

/-- What a call of `claim_task` does: nothing, a claim of the first pending task, or, under a
time to live that is not positive, a move without a lease key. -/
theorem claimNextTaskScript_cases (s : Store) (w : String) (ttl : ℤ) :
    ((claimNextTaskScript s w ttl).1.isOk = false ∧ (claimNextTaskScript s w ttl).2 = s) ∨
    (0 < ttl ∧ ∃ t raw, s.pendingOrder.first = some t ∧
      claimNextTaskScript s w ttl = (.ok raw, s.claimed t raw w)) ∨
    (ttl ≤ 0 ∧ (claimNextTaskScript s w ttl).1.isOk = false ∧
      ∃ t raw, (claimNextTaskScript s w ttl).2 = s.moveToProcessing t raw) := by
  unfold claimNextTaskScript
  cases hfirst : s.pendingOrder.first with
  | none => exact .inl ⟨rfl, rfl⟩
  | some t =>
    cases hraw : s.pendingPayloads.get t with
    | none => simp [hraw, Reply.isOk]
    | some raw =>
      by_cases hleased : s.leases.has t = true
      · simp [hraw, hleased, Reply.isOk]
      · by_cases httl : 0 < ttl
        · refine .inr (.inl ⟨httl, t, raw, rfl, ?_⟩)
          simp [hleased, httl, Store.claimed, hraw]
        · refine .inr (.inr ⟨by omega, ?_, t, raw, ?_⟩)
          · simp [hleased, httl, hraw, Reply.isOk]
          · simp [hleased, httl, hraw]

/-- What a call of `claim_existing_task` does. -/
theorem claimExistingTaskScript_cases (s : Store) (t w : String) (ttl : ℤ) :
    ((claimExistingTaskScript s t w ttl).1.isOk = false ∧
      (claimExistingTaskScript s t w ttl).2 = s) ∨
    (claimOpen t s = true ∧ (claimExistingTaskScript s t w ttl).2 = s.expireLease t ttl) ∨
    (0 < ttl ∧ ∃ raw, claimExistingTaskScript s t w ttl = (.ok "ok", s.claimed t raw w)) ∨
    (ttl ≤ 0 ∧ (claimExistingTaskScript s t w ttl).1.isOk = false ∧
      ∃ raw, (claimExistingTaskScript s t w ttl).2 = s.moveToProcessing t raw) := by
  unfold claimExistingTaskScript
  cases hprocessing : s.processingPayloads.get t with
  | some _ =>
    have hopen : claimOpen t s = true := by simp [claimOpen, Table.has, hprocessing]
    cases hlease : s.leases.get t with
    | none => simp [Reply.isOk]
    | some owner =>
      by_cases howner : owner = w
      · simp [howner, hopen]
      · simp [howner, Reply.isOk]
  | none =>
    cases hpending : s.pendingPayloads.get t with
    | none => simp [Reply.isOk]
    | some raw =>
      by_cases hother : ∃ owner, s.leases.get t = some owner ∧ owner ≠ w
      · simp only [if_pos hother]
        exact .inl ⟨rfl, trivial⟩
      · simp only [if_neg hother]
        by_cases httl : 0 < ttl
        · exact .inr (.inr (.inl ⟨httl, raw, by simp [httl, Store.claimed]⟩))
        · exact .inr (.inr (.inr ⟨by omega, by simp [httl, Reply.isOk], raw, by simp [httl]⟩))

end Scripts

section Steps
variable {cfg : Config} {s : Store} {t w : String} {op : Op}

/-- The calls that only the owner may make succeed for the recorded owner alone. -/
theorem owner_of_succeeds (hcall : ownerCall op = some (t, w)) (hok : succeeds cfg s op = true) :
    s.leases.get t = some w := by
  cases op with
  | heartbeat u v =>
    obtain ⟨rfl, rfl⟩ := Prod.mk.inj (Option.some.inj hcall)
    exact heartbeatOwnerScript_ok hok
  | complete u v =>
    obtain ⟨rfl, rfl⟩ := Prod.mk.inj (Option.some.inj hcall)
    exact (completeOwnerScript_ok hok).1
  | fail u v reason failedAt =>
    obtain ⟨rfl, rfl⟩ := Prod.mk.inj (Option.some.inj hcall)
    exact (failOwnerScript_ok hok).1
  | release u v =>
    obtain ⟨rfl, rfl⟩ := Prod.mk.inj (Option.some.inj hcall)
    exact (releaseOwnerScript_ok hok).1
  | _ => cases hcall

/-- A successful disposition deletes the lease key and leaves no claim open. -/
theorem closed_of_succeeds (hdisposed : disposed op = some t) (hok : succeeds cfg s op = true) :
    Closed t (step cfg s op) := by
  cases op with
  | complete u v =>
    obtain rfl := Option.some.inj hdisposed
    exact (completeOwnerScript_ok hok).2.2
  | fail u v reason failedAt =>
    obtain rfl := Option.some.inj hdisposed
    exact (failOwnerScript_ok hok).2.2
  | release u v =>
    obtain rfl := Option.some.inj hdisposed
    exact (releaseOwnerScript_ok hok).2.2
  | recover u v =>
    obtain rfl := Option.some.inj hdisposed
    exact recoverOwnerScript_ok hok
  | deadLetter u owner reason movedAt =>
    obtain rfl := Option.some.inj hdisposed
    exact deadLetterScript_ok hok
  | _ => cases hdisposed

/-- A disposition by a worker finds the claim open. -/
theorem open_of_succeeds (hcall : ownerCall op = some (t, w)) (hdisposed : disposed op = some t)
    (hok : succeeds cfg s op = true) : claimOpen t s = true := by
  cases op with
  | complete u v =>
    obtain rfl := Option.some.inj hdisposed
    exact (completeOwnerScript_ok hok).2.1
  | fail u v reason failedAt =>
    obtain rfl := Option.some.inj hdisposed
    exact (failOwnerScript_ok hok).2.1
  | release u v =>
    obtain rfl := Option.some.inj hdisposed
    exact (releaseOwnerScript_ok hok).2.1
  | heartbeat => cases hdisposed
  | _ => cases hcall

/-- A call that claims nothing deletes one lease key at most. -/
theorem leases_step (h : claimant s op = none) :
    (step cfg s op).leases = s.leases ∨ ∃ u, (step cfg s op).leases = s.leases.del u := by
  cases op with
  | enqueue u p =>
    simp only [step, enqueueScript]
    split_ifs <;> exact .inl rfl
  | enqueueIdempotent k u p =>
    simp only [step, idempotentEnqueueScript]
    split_ifs <;> exact .inl rfl
  | cancel u =>
    simp only [step, cancelPendingTaskScript]
    split_ifs <;> exact .inl rfl
  | claimNext v =>
    have hfirst : s.pendingOrder.first = none := by simpa [claimant] using h
    simp [step, claimNextTaskScript, hfirst]
  | claimExisting u v => simp [claimant] at h
  | heartbeat u v =>
    simp only [step, heartbeatOwnerScript, Store.expireLease]
    split
    · exact .inl rfl
    · split_ifs
      · exact .inl rfl
      · exact .inl rfl
      · exact .inr ⟨u, rfl⟩
  | complete u v =>
    simp only [step, completeOwnerScript]
    split
    · exact .inl rfl
    · split_ifs
      · exact .inl rfl
      · exact .inr ⟨u, rfl⟩
      · exact .inl rfl
  | fail u v reason failedAt =>
    simp only [step, failOwnerScript]
    repeat' split
    all_goals first | exact .inl rfl | exact .inr ⟨u, rfl⟩
  | release u v =>
    simp only [step, releaseOwnerScript]
    repeat' split
    all_goals first | exact .inl rfl | exact .inr ⟨u, rfl⟩
  | recover u v =>
    simp only [step, recoverOwnerScript]
    repeat' split
    all_goals first | exact .inl rfl | exact .inr ⟨u, rfl⟩
  | deadLetter u owner reason movedAt =>
    simp only [step, deadLetterScript]
    repeat' split
    all_goals first | exact .inl rfl | exact .inr ⟨u, rfl⟩
  | retryDeadLetter u =>
    simp only [step, retryDeadLetterScript]
    repeat' split
    all_goals exact .inl rfl
  | leaseExpires u => exact .inr ⟨u, rfl⟩

/-- A worker becomes the recorded owner by its own claim only. -/
theorem owner_step (h : (step cfg s op).leases.get t = some w) :
    s.leases.get t = some w ∨ claims cfg t w s op = true := by
  by_cases hclaim : claimant s op = none
  · left
    rcases leases_step hclaim with hkept | ⟨u, hkept⟩
    · rwa [hkept] at h
    · rw [hkept, Table.get_del] at h
      split_ifs at h
      exact h
  · cases op with
    | claimNext v =>
      rcases claimNextTaskScript_cases s v cfg.heartbeatTtlSeconds with
        ⟨-, hsame⟩ | ⟨-, u, raw, hfirst, hclaimed⟩ | ⟨-, -, u, raw, hmoved⟩
      · left
        rwa [step, hsame] at h
      · rw [step, hclaimed, leases_claimed] at h
        split_ifs at h with htask
        · right
          obtain rfl := Option.some.inj h
          simp [claims, claimant, hfirst, htask, succeeds, hclaimed, Reply.isOk]
        · exact .inl h
      · left
        rwa [step, hmoved] at h
    | claimExisting u v =>
      rcases claimExistingTaskScript_cases s u v cfg.heartbeatTtlSeconds with
        ⟨-, hsame⟩ | ⟨-, hexpire⟩ | ⟨-, raw, hclaimed⟩ | ⟨-, -, raw, hmoved⟩
      · left
        rwa [step, hsame] at h
      · left
        rw [step, hexpire] at h
        exact leases_expireLease h
      · rw [step, hclaimed, leases_claimed] at h
        split_ifs at h with htask
        · right
          obtain rfl := Option.some.inj h
          simp [claims, claimant, htask, succeeds, hclaimed, Reply.isOk]
        · exact .inl h
      · left
        rwa [step, hmoved] at h
    | _ => simp [claimant] at hclaim

/-- A claim becomes open by a successful claim call only. -/
theorem claimOpen_step (httl : 0 < cfg.heartbeatTtlSeconds)
    (h : claimOpen t (step cfg s op) = true) :
    claimOpen t s = true ∨ opens cfg t s op = true := by
  by_cases hopen : claimOpen t s = true
  · exact .inl hopen
  · right
    rcases (slot_step s t cfg op).claim_of_open h hopen with ⟨v, rfl⟩ | ⟨v, rfl⟩
    · rcases claimNextTaskScript_cases s v cfg.heartbeatTtlSeconds with
        ⟨-, hsame⟩ | ⟨-, u, raw, hfirst, hclaimed⟩ | ⟨hexpired, -⟩
      · rw [step, hsame] at h
        exact absurd h hopen
      · rw [step, hclaimed] at h
        have htask := (claimOpen_claimed h).resolve_right hopen
        subst htask
        simp [opens, claimant, hfirst, succeeds, hclaimed, Reply.isOk, hopen]
      · omega
    · rcases claimExistingTaskScript_cases s t v cfg.heartbeatTtlSeconds with
        ⟨-, hsame⟩ | ⟨hbefore, -⟩ | ⟨-, raw, hclaimed⟩ | ⟨hexpired, -⟩
      · rw [step, hsame] at h
        exact absurd h hopen
      · exact absurd hbefore hopen
      · simp [opens, claimant, succeeds, hclaimed, Reply.isOk, hopen]
      · omega

/-- A claim call succeeds under a positive time to live only. -/
theorem ttl_of_opens (h : opens cfg t s op = true) : 0 < cfg.heartbeatTtlSeconds := by
  simp only [opens, Bool.and_eq_true, Bool.not_eq_true'] at h
  obtain ⟨⟨hclaimant, hok⟩, hnew⟩ := h
  cases op with
  | claimNext v =>
    rcases claimNextTaskScript_cases s v cfg.heartbeatTtlSeconds with
      ⟨hrefused, -⟩ | ⟨httl, -⟩ | ⟨-, hrefused, -⟩
    · exact absurd hok (by simp [succeeds, hrefused])
    · exact httl
    · exact absurd hok (by simp [succeeds, hrefused])
  | claimExisting u v =>
    obtain rfl : u = t := by simpa [claimant] using hclaimant
    rcases claimExistingTaskScript_cases s u v cfg.heartbeatTtlSeconds with
      ⟨hrefused, -⟩ | ⟨hbefore, -⟩ | ⟨httl, -⟩ | ⟨-, hrefused, -⟩
    · exact absurd hok (by simp [succeeds, hrefused])
    · rw [hbefore] at hnew
      cases hnew
    · exact httl
    · exact absurd hok (by simp [succeeds, hrefused])
  | _ => simp [claimant] at hclaimant

theorem disposed_of_handedBack (h : handedBack op = some t) : disposed op = some t := by
  cases op with
  | release | recover | deadLetter => exact h
  | _ => cases h

/-- A successful disposition of a claim ends it. -/
theorem closed_of_closes (h : closes cfg t s op = true) :
    claimOpen t s = true ∧ claimOpen t (step cfg s op) = false := by
  simp only [closes, Bool.and_eq_true, decide_eq_true_eq] at h
  exact ⟨h.2, (closed_of_succeeds h.1.1 h.1.2).2⟩

end Steps

section Runs
variable {cfg : Config} {t w : String}

/-- How many claims of `t` a run opens. -/
def openings (cfg : Config) (t : String) : Store → List Op → ℕ
  | _, [] => 0
  | s, op :: ops => (opens cfg t s op).toNat + openings cfg t (step cfg s op) ops

/-- How many dispositions of claims of `t` succeed in a run. -/
def closings (cfg : Config) (t : String) : Store → List Op → ℕ
  | _, [] => 0
  | s, op :: ops => (closes cfg t s op).toNat + closings cfg t (step cfg s op) ops

/-- Each disposition uses up a claim that was open at the start or opened since. -/
theorem closings_le (httl : 0 < cfg.heartbeatTtlSeconds) (s : Store) (ops : List Op) :
    closings cfg t s ops ≤ openings cfg t s ops + (claimOpen t s).toNat := by
  induction ops generalizing s with
  | nil => simp [closings]
  | cons op ops ih =>
    have hrest := ih (step cfg s op)
    simp only [closings, openings]
    have hentry : (claimOpen t (step cfg s op)).toNat ≤
        (opens cfg t s op).toNat + (claimOpen t s).toNat := by
      cases hafter : claimOpen t (step cfg s op) with
      | false => simp
      | true => rcases claimOpen_step httl hafter with h | h <;> simp [h]
    cases hclose : closes cfg t s op with
    | false =>
      simp only [Bool.toNat_false]
      omega
    | true =>
      obtain ⟨hbefore, hafter⟩ := closed_of_closes hclose
      simp only [hbefore, hafter, Bool.toNat_true, Bool.toNat_false] at hrest ⊢
      omega

/-- Nobody becomes the owner of `t` without a claim. -/
theorem not_owner_run {s : Store} {ops : List Op} (howner : s.leases.get t ≠ some w)
    (hclaims : Guarded (step cfg) (fun s op => claims cfg t w s op = false) s ops) :
    (exec (step cfg) s ops).leases.get t ≠ some w := by
  refine hclaims.preserves (I := fun s => s.leases.get t ≠ some w) ?_ howner
  intro s op hnot hclaim howned
  rcases owner_step howned with h | h
  · exact hnot h
  · rw [hclaim] at h
    cases h

/-- In every run, from any store: a claim is closed by at most one successful disposition
before the task is claimed again; the calls reserved to the owner succeed for the recorded
owner alone, and those that dispose of the task only while its claim is open; and once a
task was handed back, they fail for every worker that has not claimed the task since. -/
theorem one_disposition_per_claim (cfg : Config) (s : Store) (ops : List Op) (t : String) :
    (∀ claim, opens cfg t s claim = true →
      openings cfg t (step cfg s claim) ops = 0 → closings cfg t (step cfg s claim) ops ≤ 1) ∧
    (∀ op w, ownerCall op = some (t, w) → succeeds cfg s op = true →
      s.leases.get t = some w ∧ (disposed op = some t → claimOpen t s = true)) ∧
    ∀ op w, handedBack op = some t → succeeds cfg s op = true →
      Guarded (step cfg) (fun s op => claims cfg t w s op = false) (step cfg s op) ops →
      ∀ call, ownerCall call = some (t, w) →
        succeeds cfg (exec (step cfg) (step cfg s op) ops) call = false := by
  refine ⟨fun claim hclaim hnone => ?_, fun op w hcall hok => ?_, ?_⟩
  · have hle := closings_le (t := t) (ttl_of_opens hclaim) (step cfg s claim) ops
    have hone : (claimOpen t (step cfg s claim)).toNat ≤ 1 := Bool.toNat_le _
    omega
  · exact ⟨owner_of_succeeds hcall hok, fun hdisposed => open_of_succeeds hcall hdisposed hok⟩
  · intro op w hback hok hclaims call hcall
    have hclosed := (closed_of_succeeds (disposed_of_handedBack hback) hok).1
    have howner := not_owner_run (w := w) (by simp [hclosed]) hclaims
    by_contra hcalled
    exact howner (owner_of_succeeds hcall (by simpa using hcalled))

end Runs

end Ajenda.RedisQueue
