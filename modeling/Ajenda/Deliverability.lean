import Ajenda.DeliveryTransactions
import Ajenda.QueueDelivery

/-!
# Every queued task stays deliverable

In every run of operations that re-arms the dispatch of a task it queues, a queued task has
its payload in the queue, a pending dispatch, or a deferral with an open dependency. An
admission over a dispatch that was published before re-arms nothing.
-/
namespace Ajenda.Runtime
open JsonValue KeyedRows FiniteTable TransitionSystem
open RedisQueue (Config Store)

/-- A queued task is stranded only while its payload is in the queue. -/
structure Delivered (cfg : Config) (env : Env) (w : World) : Prop where
  ledger : Ledger cfg.tenantId w.db w.queue.dispatchKeys
  stranded : ∀ id, Stranded env w.db id → w.queue.holds id = true

section Parts
variable {cfg : Config} {env : Env} {w : World}

theorem Delivered.empty : Delivered cfg env .empty :=
  ⟨.empty, fun _ ⟨_, ht, _⟩ => by cases ht⟩

theorem Delivered.ofDb (h : Delivered cfg env w) {db : Db}
    (hledger : ∀ keys, Ledger cfg.tenantId w.db keys → Ledger cfg.tenantId db keys)
    (hstranded : ∀ id, Stranded env db id → w.queue.holds id = true ∨ Stranded env w.db id) :
    Delivered cfg env { w with db } :=
  ⟨hledger _ h.ledger, fun id hs => (hstranded id hs).elim (fun hq => hq) (h.stranded id)⟩

theorem Delivered.commit {P : String → Prop} {s : Session} (h : Delivered cfg env w)
    (hadvance : Advance env none P w.db.open s) (hP : ∀ id, P id → w.queue.holds id = true) :
    Delivered cfg env { w with db := s.db } :=
  h.ofDb (hadvance.ledger _) fun id hs => (hadvance.stranded id hs).imp_left (hP id)

/-- A queue operation that takes away no payload of a stranded task. -/
theorem Delivered.queueStep (h : Delivered cfg env w) (op : RedisQueue.Op)
    (hkeys : ∀ key t p, op ≠ .enqueueIdempotent key t p)
    (hremoves : ∀ id, Stranded env w.db id → op.removes id = false) :
    Delivered cfg env { w with queue := RedisQueue.step cfg w.queue op } := by
  refine ⟨?_, fun id hs => RedisQueue.holds_step cfg (h.stranded id hs) (hremoves id hs)⟩
  rw [RedisQueue.dispatchKeys_step cfg hkeys]
  exact h.ledger

/-- A queue operation on an idle task. -/
theorem Delivered.queueStepOn (h : Delivered cfg env w) {o : RedisQueue.Op} {taskId : String}
    (hkeys : ∀ key t p, o ≠ .enqueueIdempotent key t p)
    (hop : ∀ id, o.removes id = true → id = taskId) (hidle : Idle env w.db taskId) :
    Delivered cfg env { w with queue := RedisQueue.step cfg w.queue o } := by
  refine h.queueStep o hkeys fun id hs => ?_
  by_contra hremoves
  exact hidle.not_stranded (hop id (by simpa using hremoves) ▸ hs)

theorem Ledger.spend {tenantId : String} {db : Db} {keys keys' : Table String Unit}
    (h : Ledger tenantId db keys)
    (hkeys : ∀ key, keys'.has key = true → keys.has key = true ∨
      ∃ id d generation, db.dispatches.get id = some d ∧ key = idempotencyKey id generation ∧
        d.Spent generation) : Ledger tenantId db keys' :=
  ⟨h.tasks, h.tenant, h.plain, h.unpublished, h.cleanup,
    fun key hkey => (hkeys key hkey).elim (h.used key) id⟩

/-- The current generation of a pending dispatch has not been published. -/
theorem Ledger.fresh {tenantId : String} {db : Db} {keys : Table String Unit}
    (h : Ledger tenantId db keys) {d : RuntimeQueueDispatch}
    (hget : db.dispatches.get d.id = some d) (hpending : d.status = .pending) {generation : ℕ}
    (hgeneration : retryGeneration d.payload = .ok generation) :
    keys.has (idempotencyKey d.id generation) = false := by
  by_contra hused
  obtain ⟨id, e, g, he, hkey, -, current, hcurrent, hle, hlt⟩ := h.used _ (by simpa using hused)
  obtain ⟨hid, rfl⟩ := idempotencyKey_inj (h.plain _ d hget) (h.plain _ e he) hkey
  rw [← hid, hget] at he
  obtain rfl := Option.some.inj he
  obtain rfl := Except.ok.inj (hcurrent.symm.trans hgeneration)
  exact absurd (hlt hpending) (lt_irrefl _)

theorem Delivered.publishDispatch (h : Delivered cfg env w) (dispatchId : String) :
    Delivered cfg env (publishDispatch cfg w dispatchId) := by
  unfold Runtime.publishDispatch
  split
  · exact h
  next d hd =>
    have hget : w.db.dispatches.get d.id = some d := Rows.get_self hd
    split_ifs with hpending
    · exact h
    · rw [not_not] at hpending
      split
      next queue hpublish =>
        have hp := publish_publishes cfg hpublish
        have hack : acknowledgePublication w.db.open dispatchId =
            w.db.open.saveDispatch { d with status := .published, published := true } := by
          simp [acknowledgePublication, Db.open, hd, hpending]
        rw [hack]
        have hrow := get_saveDispatch (s := w.db.open)
          (r := { d with status := .published, published := true }) hget rfl
        refine ⟨?_, fun id hs => ?_⟩
        · have hspent : ∀ g, d.Spent g →
              RuntimeQueueDispatch.Spent { d with status := .published, published := true } g := by
            rintro g ⟨-, current, hcurrent, hle, -⟩
            exact ⟨by simp, current, hcurrent, hle, fun hc => by simp at hc⟩
          have hsaved := Ledger.saveDispatch (s := w.db.open) h.ledger hget
            (r := { d with status := .published, published := true }) rfl rfl
            (fun hc => by simp at hc) (fun hc => by simp at hc) hspent
          refine hsaved.spend fun key hkey => (hp.keys key hkey).imp_right ?_
          rintro ⟨-, generation, hgeneration, rfl⟩
          exact ⟨d.id, _, generation, (hrow d.id).trans (if_pos rfl), rfl, by simp, generation,
            hgeneration, le_rfl, fun hc => by simp at hc⟩
        · by_cases hid : id = d.taskId
          · subst hid
            exact hp.delivered rfl fun g hg => h.ledger.fresh hget hpending hg
          · refine hp.holds id (h.stranded id (hs.back (.of_eq (m := none) rfl) rfl ?_ (by simp)))
            rintro ⟨k, e, he, rfl, hstatus⟩
            refine ⟨k, e, (hrow k).trans ((if_neg ?_).trans he), rfl, hstatus⟩
            rintro rfl
            obtain rfl := Option.some.inj (hget.symm.trans he)
            exact hid rfl
      next queue hpublish =>
        have hp := publish_publishes cfg hpublish
        refine ⟨h.ledger.spend fun key hkey => (hp.keys key hkey).imp_right ?_,
          fun id hs => hp.holds id (h.stranded id hs)⟩
        rintro ⟨hc, -⟩
        cases hc

theorem publishDispatch_tasks (w : World) (dispatchId : String) :
    (publishDispatch cfg w dispatchId).db.tasks = w.db.tasks := by
  unfold publishDispatch acknowledgePublication
  split
  · rfl
  · split_ifs
    · rfl
    · split
      · split
        · rfl
        · split_ifs <;> rfl
      · rfl

theorem foldl_publishDispatch (h : Delivered cfg env w) (ids : List String) :
    Delivered cfg env (ids.foldl (publishDispatch cfg) w) ∧
      (ids.foldl (publishDispatch cfg) w).db.tasks = w.db.tasks := by
  induction ids generalizing w with
  | nil => exact ⟨h, rfl⟩
  | cons id ids ih =>
    obtain ⟨hd, htasks⟩ := ih (h.publishDispatch id)
    exact ⟨hd, htasks.trans (publishDispatch_tasks w id)⟩

theorem Delivered.afterCommit {s : Session} (h : Delivered cfg env { w with db := s.db }) :
    Delivered cfg env (afterCommit cfg w s) ∧ (afterCommit cfg w s).db.tasks = s.db.tasks :=
  foldl_publishDispatch h s.intents

theorem Delivered.transact {result : Except Error Session} (h : Delivered cfg env w)
    (hok : ∀ s, result = .ok s → Delivered cfg env { w with db := s.db }) :
    Delivered cfg env (transact cfg w result) := by
  unfold Runtime.transact
  split
  next s => exact (hok s rfl).afterCommit.1
  · exact h

end Parts

section Operations
variable {cfg : Config} {env : Env} {amb : Ambient} {w : World}

/-- Neither outcome of the queue call takes away the payload of a stranded task, and an
accepted call keeps the tasks that the transaction strands. -/
theorem Delivered.commitAccepted {P : String → Prop} {result : Except Error Session}
    {call : RedisQueue.Reply String × Store} {o : RedisQueue.Op} (h : Delivered cfg env w)
    (hcall : call.2 = RedisQueue.step cfg w.queue o)
    (hkeys : ∀ key t p, o ≠ .enqueueIdempotent key t p)
    (hadvance : ∀ s, result = .ok s → Advance env none P w.db.open s)
    (hremoves : ∀ s, result = .ok s → ∀ id, o.removes id = true →
      Idle env w.db id ∧ Idle env s.db id)
    (hP : ∀ s, result = .ok s → ∀ id, P id → ∀ value, call.1 = .ok value →
      call.2.holds id = true) :
    Delivered cfg env (commitAccepted w result call) := by
  unfold Runtime.commitAccepted
  cases result with
  | error e => exact h
  | ok s =>
    have hadvance := hadvance s rfl
    have hstep : ∀ id, Stranded env w.db id → o.removes id = false := fun id hs => by
      by_contra hr
      exact (hremoves s rfl id (by simpa using hr)).1.not_stranded hs
    have hqueue := h.queueStep o hkeys hstep
    dsimp only
    split
    next value queue =>
      have hcall : queue = RedisQueue.step cfg w.queue o := hcall
      subst hcall
      exact hqueue.commit hadvance fun id hid => hP s rfl id hid value rfl
    next reply queue hne =>
      have hcall : queue = RedisQueue.step cfg w.queue o := hcall
      subst hcall
      exact hqueue

theorem releaseOwnerScript_holds {queue : Store} {t worker value : String}
    (h : (RedisQueue.releaseOwnerScript queue t worker).1 = .ok value) :
    (RedisQueue.releaseOwnerScript queue t worker).2.holds t = true := by
  unfold RedisQueue.releaseOwnerScript at h ⊢
  split at h
  · cases h
  · split_ifs at h ⊢
    split at h
    · cases h
    · simp [Store.holds, Store.pushPending, Store.dropLease, Table.has_put]

theorem recoverOwnerScript_holds {queue : Store} {t worker value : String}
    (h : (RedisQueue.recoverOwnerScript queue t worker).1 = .ok value) :
    (RedisQueue.recoverOwnerScript queue t worker).2.holds t = true := by
  unfold RedisQueue.recoverOwnerScript at h ⊢
  split_ifs at h ⊢
  split at h
  · cases h
  · cases h
  · simp [Store.holds, Store.pushPending, Store.dropLease, Table.has_put]
  · simp [Store.holds, Store.pushPending, Store.dropLease, Table.has_put]

theorem Delivered.heartbeatLease (h : Delivered cfg env w) (leaseId workerId : String) :
    Delivered cfg env (heartbeatLease cfg w leaseId workerId) := by
  unfold Runtime.heartbeatLease
  split
  · exact h
  next lease hlease =>
    exact h.commitAccepted (P := fun _ => False) (o := .heartbeat lease.taskId workerId) rfl
      (by simp) (fun s hs => heartbeat_advance hs) (fun s _ id hid => by cases hid)
      (fun s _ id hid => hid.elim)

theorem Delivered.releaseLease (h : Delivered cfg env w) (leaseId workerId : String) :
    Delivered cfg env (releaseLease cfg w leaseId workerId) := by
  unfold Runtime.releaseLease
  split
  · exact h
  next lease hlease =>
    refine h.commitAccepted (P := (· = lease.taskId)) (o := .release lease.taskId workerId) rfl
      (by simp) (fun s hs => ?_) (fun s _ id hid => by cases hid)
      (fun s _ id hid value hvalue => by subst hid; exact releaseOwnerScript_holds hvalue)
    obtain ⟨lease', hlease', hadvance⟩ := release_advance env hs
    obtain rfl := Option.some.inj (hlease.symm.trans hlease')
    exact hadvance

theorem Delivered.deadLetterTask (h : Delivered cfg env w) (taskId reason : String) :
    Delivered cfg env (deadLetterTask cfg amb w taskId reason) := by
  unfold Runtime.deadLetterTask
  refine h.commitAccepted (P := fun _ => False)
    (o := .deadLetter taskId "" reason amb.now) rfl (by simp)
    (fun s hs => markDeadLetter_advance hs) (fun s hs id hid => ?_) (fun s _ id hid => hid.elim)
  obtain rfl : taskId = id := by simpa [RedisQueue.Op.removes] using hid
  obtain ⟨task, htask, hrest⟩ := bind_eq_ok.mp hs
  obtain ⟨task₁, htask₁, hrest⟩ := bind_eq_ok.mp hrest
  obtain ⟨hallowed, rfl⟩ := transitionTask_eq_ok.mp htask₁
  obtain rfl := Except.ok.inj hrest
  obtain ⟨hget, rfl, -⟩ := requireTask_eq_ok htask
  refine ⟨Idle.of_status hget fun hq => ?_,
    Idle.of_status (saveTask_row (task.withStatus .deadLettered) hget rfl) (by simp)⟩
  rw [hq] at hallowed
  simp [taskAllowed] at hallowed

theorem Delivered.recoverExpired (h : Delivered cfg env w) (maxRetries : ℕ)
    (leaseId reason : String) :
    Delivered cfg env (recoverExpired cfg amb w maxRetries leaseId reason) := by
  unfold Runtime.recoverExpired
  split
  · exact h
  next lease hlease =>
    split
    · exact h
    next task htask =>
      have hget := Rows.get_self htask
      dsimp only
      split_ifs with hlive
      · exact h
      · split
        next hmove =>
          refine h.transact fun s hs => h.commit (P := fun _ => False)
            ((recoverLease_advance (s := w.db.open) hlease htask hs).2 (by rw [hmove]; simp)) ?_
          exact fun _ hid => hid.elim
        next hmove =>
          refine h.commitAccepted (P := fun _ => False)
            (o := .deadLetter task.id lease.holderIdentity reason amb.now) rfl (by simp)
            (fun s hs => (recoverLease_advance (s := w.db.open) hlease htask hs).2
              (by rw [hmove]; simp)) (fun s hs id hid => ?_) (fun s _ id hid => hid.elim)
          obtain rfl : task.id = id := by simpa [RedisQueue.Op.removes] using hid
          have hworking := recoveryMove_working (by rw [hmove]; simp)
          refine ⟨Idle.of_status hget (by rcases hworking with hw | hw <;> simp [hw]), ?_⟩
          obtain ⟨t', ht', hstatus⟩ := recoverLease_deadLettered (s := w.db.open) hlease htask
            (by simpa using hlive) hmove hs
          exact Idle.of_status ht' (by simp [hstatus])
        next hmove =>
          exact h.commitAccepted (P := (· = task.id))
            (o := .recover task.id lease.holderIdentity) rfl (by simp)
            (fun s hs => (recoverLease_advance (P := fun _ => False) (s := w.db.open) hlease htask
              hs).1) (fun s _ id hid => by cases hid)
            (fun s _ id hid value hvalue => by subst hid; exact recoverOwnerScript_holds hvalue)

theorem Delivered.reconcileProcessing (h : Delivered cfg env w) (taskId holder reason : String) :
    Delivered cfg env (reconcileProcessing cfg amb w taskId holder reason) := by
  unfold Runtime.reconcileProcessing
  split
  · exact h
  next task htask =>
    have hdone : ∀ op : RedisQueue.Op, (∀ key t p, op ≠ .enqueueIdempotent key t p) →
        (∀ id, op.removes id = true → id = taskId) → task.status ≠ .queued →
        Delivered cfg env { w with queue := RedisQueue.step cfg w.queue op } :=
      fun op hkeys hop hstatus =>
        h.queueStepOn hkeys hop (Idle.of_status htask hstatus)
    split_ifs
    · exact h
    · split
      next hs =>
        refine hdone (.complete taskId holder) (by simp) (fun id hid => ?_) (by simp [hs])
        simpa [RedisQueue.Op.removes, eq_comm] using hid
      next hs =>
        refine hdone (.complete taskId holder) (by simp) (fun id hid => ?_) (by simp [hs])
        simpa [RedisQueue.Op.removes, eq_comm] using hid
      next hs =>
        refine hdone (.complete taskId holder) (by simp) (fun id hid => ?_) (by simp [hs])
        simpa [RedisQueue.Op.removes, eq_comm] using hid
      next hs =>
        refine hdone (.deadLetter taskId "" reason amb.now) (by simp) (fun id hid => ?_) (by simp [hs])
        simpa [RedisQueue.Op.removes, eq_comm] using hid
      next hs =>
        refine hdone (.deadLetter taskId "" reason amb.now) (by simp) (fun id hid => ?_) (by simp [hs])
        simpa [RedisQueue.Op.removes, eq_comm] using hid
      · exact h.commitAccepted (P := (· = taskId)) (o := .recover taskId "runtime_maintainer") rfl
          (by simp) (fun s hs => requeueOrphan_advance hs) (fun s _ id hid => by cases hid)
          (fun s _ id hid value hvalue => by subst hid; exact recoverOwnerScript_holds hvalue)

theorem Delivered.publishDue (h : Delivered cfg env w) (dispatchId : String) :
    Delivered cfg env (publishDue cfg w dispatchId) := by
  unfold Runtime.publishDue
  split
  · exact h
  next d hd =>
    have hget : w.db.dispatches.get d.id = some d := Rows.get_self hd
    dsimp only
    split_ifs with hqueued
    · exact h.publishDispatch dispatchId
    · unfold dropDueDispatch
      rw [show w.db.open.db.dispatches.get dispatchId = some d from hd]
      dsimp only
      split_ifs with hpending
      · have hrow := get_saveDispatch (s := w.db.open)
          (r := { d with status := .cancelled, cleaned := !d.published }) hget rfl
        have hd' : d.status = .pending := by
          simp only [Bool.and_eq_true, decide_eq_true_eq] at hpending
          exact hpending.1
        refine h.ofDb (fun keys hl => ?_) fun id hs => .inr ?_
        · refine Ledger.saveDispatch (s := w.db.open) hl hget rfl rfl (fun hc => by simp at hc)
            (fun _ hpub hclean => ?_) ?_
          · simp [hl.unpublished _ d hget (.inl hd')] at hpub
          · rintro g ⟨-, current, hcurrent, hle, -⟩
            exact ⟨by simp, current, hcurrent, hle, fun hc => by simp at hc⟩
        · refine hs.back (.of_eq (m := none) rfl) rfl ?_ (by simp)
          rintro ⟨k, e, he, rfl, hstatus⟩
          refine ⟨k, e, (hrow k).trans ((if_neg ?_).trans he), rfl, hstatus⟩
          rintro rfl
          obtain rfl := Option.some.inj (hget.symm.trans he)
          obtain ⟨t, ht, hq, -⟩ := hs
          have ht : w.db.tasks.get d.taskId = some t := ht
          have htenant := (h.ledger.tasks _ t ht).trans (h.ledger.tenant _ d hget).symm
          simp [ht, htenant, hq] at hqueued
      · exact h

theorem Delivered.reconcileCancelled (h : Delivered cfg env w) (dispatchId : String) :
    Delivered cfg env (reconcileCancelled w dispatchId) := by
  unfold Runtime.reconcileCancelled
  split
  · exact h
  next d hd =>
    have hget : w.db.dispatches.get d.id = some d := Rows.get_self hd
    split_ifs with hcancelled
    · obtain ⟨⟨hstatus, hpublished⟩, hcleaned⟩ : (d.status = .cancelled ∧ d.published = true) ∧
          d.cleaned = false := by simpa using hcancelled
      obtain ⟨task, htask, hc⟩ := h.ledger.cleanup _ d hget hstatus hpublished hcleaned
      have hqueue := h.queueStepOn (o := .cancel d.taskId) (by simp)
        (fun id hid => by simpa [RedisQueue.Op.removes, eq_comm] using hid)
        (Idle.of_status htask (by simp [hc]))
      have hstep : RedisQueue.step cfg w.queue (.cancel d.taskId) =
          (RedisQueue.cancelPendingTaskScript w.queue d.taskId).2 := rfl
      split
      next value queue hcall =>
        rw [hcall] at hstep
        rw [hstep] at hqueue
        have hrow := get_saveDispatch (s := w.db.open) (r := { d with cleaned := true }) hget rfl
        have hack : acknowledgeCleanup w.db.open dispatchId =
            w.db.open.saveDispatch { d with cleaned := true } := by
          simp [acknowledgeCleanup, Db.open, hd, hstatus, hpublished, hcleaned]
        rw [hack]
        refine hqueue.ofDb (fun keys hl => ?_) fun id hs => .inr ?_
        · exact Ledger.saveDispatch (s := w.db.open) hl hget rfl rfl
            (hl.unpublished _ d hget) (fun _ _ hc => by simp at hc) fun _ hs => hs
        · refine hs.back (.of_eq (m := none) rfl) rfl ?_ (by simp)
          rintro ⟨k, e, he, rfl, hpending⟩
          refine ⟨k, e, (hrow k).trans ((if_neg ?_).trans he), rfl, hpending⟩
          rintro rfl
          obtain rfl := Option.some.inj (hget.symm.trans he)
          rw [hstatus] at hpending
          cases hpending
      next reply queue hne hcall =>
        rw [hcall] at hstep
        rw [hstep] at hqueue
        exact hqueue
    · exact h

/-- A call that gives the message of an idle task back to the queue as done. -/
theorem Delivered.finishWork {leaseId : String} {result : Except Error Session}
    {call : String → Store → Store} (op : String → RedisQueue.Op) (h : Delivered cfg env w)
    (hcall : ∀ taskId queue, call taskId queue = RedisQueue.step cfg queue (op taskId))
    (hkeys : ∀ taskId key t p, op taskId ≠ .enqueueIdempotent key t p)
    (hop : ∀ taskId id, (op taskId).removes id = true → id = taskId)
    (hok : ∀ s, result = .ok s → Delivered cfg env { w with db := s.db } ∧
      ∀ lease, w.db.leases.get leaseId = some lease → Idle env s.db lease.taskId) :
    Delivered cfg env (finishWork cfg w leaseId result call) := by
  unfold Runtime.finishWork
  split
  next lease s hlease =>
    obtain ⟨hdelivered, hidle⟩ := hok s rfl
    obtain ⟨hcommitted, htasks⟩ := hdelivered.afterCommit
    dsimp only
    rw [hcall]
    exact hcommitted.queueStepOn (hkeys lease.taskId) (hop lease.taskId)
      ((hidle lease hlease).of_tasks htasks)
  · exact h

variable (hplain : ∀ taskId, ':' ∉ (amb.dispatchId taskId).toList)
include hplain

theorem Delivered.claimMessage (h : Delivered cfg env w) (clarification : Fields → Bool)
    (taskId workerId leaseId : String) (recent : Bool) :
    Delivered cfg env
      (claimMessage cfg env amb w clarification taskId workerId leaseId recent) := by
  have hrelease : ∀ {v : World}, Delivered cfg env v → Delivered cfg env
      { v with queue := (RedisQueue.releaseOwnerScript v.queue taskId workerId).2 } :=
    fun hv => hv.queueStep (.release taskId workerId) (by simp) fun _ _ => rfl
  have hcomplete : ∀ {v : World}, Delivered cfg env v → Idle env v.db taskId → Delivered cfg env
      { v with queue := (RedisQueue.completeOwnerScript v.queue taskId workerId).2 } :=
    fun hv hidle => hv.queueStepOn (o := .complete taskId workerId) (by simp)
      (fun id hid => by simpa [RedisQueue.Op.removes, eq_comm] using hid) hidle
  unfold Runtime.claimMessage
  cases hclaim : claimTask env amb w.db.open clarification cfg.tenantId taskId workerId leaseId with
  | error e =>
    dsimp only
    split_ifs
    · exact h
    · exact hrelease h
  | ok result =>
    obtain ⟨s, outcome⟩ := result
    obtain ⟨hadvance, hleaves⟩ := claimTask_advance (P := fun _ => False) hplain hclaim
    have hcommitted := (h.commit hadvance fun _ hid => hid.elim).afterCommit
    cases outcome with
    | notFound =>
      dsimp only
      split_ifs
      · exact hrelease h
      · have hidle : Idle env w.db taskId := fun t ht _ =>
          absurd (h.ledger.tasks _ t ht) (hleaves t ht)
        have hfailed := h.queueStepOn (o := .fail taskId workerId
          "claimed queue payload has no matching tenant execution task" amb.now) (by simp)
          (fun id hid => by simpa [RedisQueue.Op.removes, eq_comm] using hid) hidle
        have hstep : RedisQueue.step cfg w.queue (.fail taskId workerId
          "claimed queue payload has no matching tenant execution task" amb.now) =
          (RedisQueue.failOwnerScript w.queue taskId workerId
            "claimed queue payload has no matching tenant execution task" amb.now).2 := rfl
        split
        next value queue hcall =>
          rw [hstep, hcall] at hfailed
          exact hfailed
        next reply queue hne hcall =>
          rw [hstep, hcall] at hfailed
          exact hrelease hfailed
    | terminal => exact hcomplete h hleaves
    | stale => exact hcomplete hcommitted.1 (Idle.of_tasks hleaves hcommitted.2)
    | deferred => exact hcomplete hcommitted.1 (Idle.of_tasks hleaves hcommitted.2)
    | claimed => exact hcommitted.1

theorem Delivered.claimNextTask (h : Delivered cfg env w) (clarification : Fields → Bool)
    (workerId leaseId : String) (recent : Bool) :
    Delivered cfg env (claimNextTask cfg env amb w clarification workerId leaseId recent) := by
  have hclaimed := h.queueStep (.claimNext workerId) (by simp) fun _ _ => rfl
  have hstep : RedisQueue.step cfg w.queue (.claimNext workerId) =
      (RedisQueue.claimNextTaskScript w.queue workerId cfg.heartbeatTtlSeconds).2 := rfl
  unfold Runtime.claimNextTask
  split
  next raw queue hcall =>
    rw [hstep, hcall] at hclaimed
    split
    · exact hclaimed
    · exact hclaimed.claimMessage hplain clarification _ workerId leaseId recent
  next reply queue hne hcall =>
    rw [hstep, hcall] at hclaimed
    exact hclaimed

end Operations

section Steps
variable {cfg : Config} {env : Env} {w : World}

/-- The step arms or keeps what delivers the tasks it queues and the tasks it wakes. -/
def rearms (cfg : Config) (env : Env) (w : World) (turn : Turn) : Bool :=
  match turn.operation with
  | .queueTask taskId .admitted _ =>
    match w.db.tasks.get taskId with
    | none => true
    | some task =>
      .queued ∉ taskAllowed task.status || w.queue.holds taskId ||
        delivers env w.db cfg.tenantId task
  | .approveReviewAndQueue taskId .admitted _ _ _ =>
    match w.db.tasks.get taskId with
    | none => true
    | some task =>
      task.status ≠ .pendingReview || (w.db.missions.get task.missionId).isNone ||
        w.queue.holds taskId || delivers env w.db cfg.tenantId task
  | .complete leaseId workerId taskOutput _ runtimeMetadata =>
    match w.db.leases.get leaseId with
    | none => true
    | some lease =>
      match w.db.tasks.get lease.taskId with
      | none => true
      | some task =>
        lease.tenantId ≠ cfg.tenantId || lease.holderIdentity ≠ workerId ||
          task.status ≠ .running || !completionCommits env task taskOutput runtimeMetadata ||
          rollupRuns w.db task.missionId task.tenantId ||
          (w.db.withCompleted task).tasks.list.all fun t =>
            !stranded env (w.db.withCompleted task) t || w.queue.holds t.id
  | _ => true

theorem Delivered.created (h : Delivered cfg env w) {mission : Mission} {s : Session}
    (hinsert : insertMission w.db.open mission = .ok s) :
    Delivered cfg env { w with db := s.db } := by
  unfold insertMission at hinsert
  split at hinsert
  · cases hinsert
  · obtain rfl := Except.ok.inj hinsert
    exact h.commit (P := fun _ => False) (.of_eq rfl rfl) fun _ hid => hid.elim

theorem Delivered.complete {amb : Ambient} (h : Delivered cfg env w)
    (hplain : ∀ taskId, ':' ∉ (amb.dispatchId taskId).toList) {leaseId workerId : String}
    {taskOutput : Option Fields} {outputReason : Option String}
    {runtimeMetadata : Option Fields}
    (hguard : rearms cfg env w ⟨amb, hplain,
      .complete leaseId workerId taskOutput outputReason runtimeMetadata⟩ = true) {s : Session}
    (hrun : Runtime.complete env amb w.db.open cfg.tenantId leaseId workerId taskOutput
      outputReason runtimeMetadata = .ok s) :
    Delivered cfg env { w with db := s.db } := by
  obtain ⟨hledger, lease, task, hpresented, hrunning, hcommits, hstranded⟩ :=
    complete_delivers hplain hrun
  refine h.ofDb (hledger _) fun id hs => ?_
  rcases hstranded id hs with hs | ⟨hruns, hs⟩
  · exact .inr hs
  · have hlease : w.db.leases.get leaseId = some lease := hpresented.leaseRow
    have htask : w.db.tasks.get lease.taskId = some task := hpresented.taskRow
    have hruns : rollupRuns w.db task.missionId task.tenantId = false := hruns
    obtain ⟨t, ht, hst⟩ := stranded_iff.mp hs
    have hst : Runtime.stranded env (w.db.withCompleted task) t = true := hst
    have ht : (w.db.withCompleted task).tasks.get id = some t := ht
    have hheld : ∀ t ∈ (w.db.withCompleted task).tasks.list,
        Runtime.stranded env (w.db.withCompleted task) t = false ∨ w.queue.holds t.id = true := by
      simpa [rearms, hlease, htask, hpresented.tenant, hpresented.holder, hrunning, hcommits,
        hruns] using hguard
    rcases hheld t (Rows.mem_of_get ht) with hidle | hheld
    · rw [hst] at hidle
      cases hidle
    · exact .inl (Rows.key_of_get ht ▸ hheld)

theorem Delivered.admitted {taskId : String} {task : ExecutionTask} {s : Session}
    {gate : Gate} {a : Prop} (h : Delivered cfg env w)
    (hadvance : Advance env none (· = taskId) w.db.open s)
    (hdelivers : (gate = .admitted → a → delivers env w.db cfg.tenantId task = true) →
      Advance env none (fun _ => False) w.db.open s)
    (hguard : gate = .admitted → a →
      w.queue.holds taskId = true ∨ delivers env w.db cfg.tenantId task = true) :
    Delivered cfg env { w with db := s.db } := by
  by_cases hheld : w.queue.holds taskId = true
  · exact h.commit hadvance fun id hid => hid ▸ hheld
  · exact h.commit (hdelivers fun hgate hallowed => (hguard hgate hallowed).resolve_left hheld)
      fun _ hid => hid.elim

theorem Delivered.step (h : Delivered cfg env w) {turn : Turn}
    (hguard : rearms cfg env w turn = true) :
    Delivered cfg env (World.step cfg env w turn) := by
  obtain ⟨amb, hplain, operation⟩ := turn
  unfold World.step
  cases operation with
  | createMission mission => exact h.transact fun s hs => h.created hs
  | createTask taskId missionId fleetId branchId metadata =>
    refine h.transact fun s hs => ?_
    obtain ⟨hledger, hstranded⟩ := insertTask_delivers env rfl hs
    exact h.ofDb hledger fun id hid => .inr (hstranded id hid)
  | queueTask taskId gate withinQuota =>
    refine h.transact fun s hs => ?_
    obtain ⟨⟨s', ok⟩, hqueue, hrest⟩ := bind_eq_ok.mp hs
    obtain rfl := Except.ok.inj hrest
    obtain ⟨task, htask, hadvance, hdelivers⟩ := queueTask_advance env hplain hqueue
    refine h.admitted hadvance hdelivers fun hgate hallowed => ?_
    have htask : w.db.tasks.get taskId = some task := htask
    subst hgate
    simpa [rearms, htask, hallowed] using hguard
  | approveReviewAndQueue taskId gate withinQuota grant receipt =>
    refine h.transact fun s hs => ?_
    obtain ⟨task, htask, hreview, hmission, hadvance, hdelivers⟩ :=
      approveReviewAndQueue_advance hplain hs
    refine h.admitted (a := True) hadvance (fun hd => hdelivers fun hgate => hd hgate trivial)
      fun hgate _ => ?_
    have htask : w.db.tasks.get taskId = some task := htask
    have hmission : (w.db.missions.get task.missionId).isSome = true := hmission
    subst hgate
    simpa [rearms, htask, hreview, ← Option.not_isSome, hmission] using hguard
  | markDeadLetter taskId reason => exact h.deadLetterTask taskId reason
  | retryTask taskId gate =>
    exact h.transact fun s hs => h.commit (P := fun _ => False) (retryTask_advance hplain hs)
      fun _ hid => hid.elim
  | claimNextTask clarification workerId leaseId recent =>
    exact h.claimNextTask hplain clarification workerId leaseId recent
  | heartbeat leaseId workerId => exact h.heartbeatLease leaseId workerId
  | startExecution leaseId workerId =>
    exact h.transact fun s hs => h.commit (P := fun _ => False) (startExecution_advance hs)
      fun _ hid => hid.elim
  | complete leaseId workerId taskOutput outputReason runtimeMetadata =>
    refine h.finishWork (fun taskId => .complete taskId workerId) (fun _ _ => rfl) (by simp)
      (fun taskId id hid => by simpa [RedisQueue.Op.removes, eq_comm] using hid) fun s hs => ?_
    refine ⟨h.complete hplain hguard hs, fun lease hlease => ?_⟩
    obtain ⟨lease', task, _, task', hpresented, -, -, hcompleted, -, hhandled⟩ := complete_eq_ok hs
    obtain rfl := Option.some.inj (hlease.symm.trans hpresented.leaseRow)
    exact .of_status (hhandled.settled (.inl hcompleted)) (by simp [hcompleted])
  | blockCompletionFailure leaseId workerId =>
    refine h.finishWork (fun taskId => .complete taskId workerId) (fun _ _ => rfl) (by simp)
      (fun taskId id hid => by simpa [RedisQueue.Op.removes, eq_comm] using hid) fun s hs => ?_
    refine ⟨h.commit (P := fun _ => False) (blockCompletionFailure_advance hs)
      fun _ hid => hid.elim, fun lease hlease => ?_⟩
    obtain ⟨lease', task', hlease', htask', hblocked⟩ := blockCompletionFailure_row hs
    obtain rfl := Option.some.inj (hlease.symm.trans hlease')
    exact .of_status htask' (by simp [hblocked])
  | fail leaseId workerId reason evidenceId =>
    refine h.finishWork (fun taskId => .fail taskId workerId reason amb.now) (fun _ _ => rfl)
      (by simp) (fun taskId id hid => by simpa [RedisQueue.Op.removes, eq_comm] using hid)
      fun s hs => ?_
    refine ⟨h.commit (P := fun _ => False) (fail_advance hplain hs)
      fun _ hid => hid.elim, fun lease hlease => ?_⟩
    obtain ⟨lease', task, _, task', hpresented, -, hfailed, -, hhandled⟩ := fail_eq_ok hs
    obtain rfl := Option.some.inj (hlease.symm.trans hpresented.leaseRow)
    exact .of_status (hhandled.settled (.inr hfailed)) (by simp [hfailed])
  | release leaseId workerId => exact h.releaseLease leaseId workerId
  | cancelTask taskId reason =>
    exact h.transact fun s hs => h.commit (P := fun _ => False) (cancelTask_advance hplain hs)
      fun _ hid => hid.elim
  | finishCancelMission missionId reason =>
    exact h.transact fun s hs => h.commit (P := fun _ => False) (finishCancelMission_advance hs)
      fun _ hid => hid.elim
  | recoverExpired maxRetries leaseId reason => exact h.recoverExpired maxRetries leaseId reason
  | reconcileProcessing taskId holder reason => exact h.reconcileProcessing taskId holder reason
  | publishDue dispatchId => exact h.publishDue dispatchId
  | reconcileCancelled dispatchId => exact h.reconcileCancelled dispatchId
  | expireLeaseKey taskId =>
    exact h.queueStep (.leaseExpires taskId) (by simp) fun _ _ => rfl

end Steps

section Runs
variable {cfg : Config} {env : Env}

/-- The queue holds the payload of the task, or its dispatch is pending, or a deferral waits
for an open dependency. -/
def Deliverable (env : Env) (w : World) (task : ExecutionTask) : Prop :=
  w.queue.holds task.id = true ∨ Armed w.db task.id ∨ Waiting env w.db task

instance (w : World) (task : ExecutionTask) : Decidable (Deliverable env w task) :=
  inferInstanceAs (Decidable (_ ∨ _ ∨ _))

theorem Delivered.deliverable {w : World} (h : Delivered cfg env w) {task : ExecutionTask}
    (hget : w.db.tasks.get task.id = some task) (hqueued : task.status = .queued) :
    Deliverable env w task := by
  by_contra hlost
  simp only [Deliverable, not_or] at hlost
  exact hlost.1 (h.stranded task.id ⟨task, hget, hqueued, hlost.2.1, hlost.2.2⟩)

/-- In a run whose steps re-arm what they queue and wake, every queued task is deliverable. -/
theorem queued_tasks_deliverable (cfg : Config) (env : Env) (turns : List Turn)
    (h : Guarded (World.step cfg env) (fun w turn => rearms cfg env w turn = true) .empty turns) :
    ∀ task ∈ (exec (World.step cfg env) .empty turns).db.tasks.list, task.status = .queued →
      Deliverable env (exec (World.step cfg env) .empty turns) task := by
  have hdelivered : Delivered cfg env (exec (World.step cfg env) .empty turns) :=
    h.preserves (fun _ _ hd hg => hd.step hg) .empty
  exact fun task htask hqueued => hdelivered.deliverable (Rows.get_of_mem htask) hqueued

def turnsOf (operations : List Operation) : List Turn :=
  operations.map (⟨⟨"now", fun _ => "dispatch"⟩, by simp, ·⟩)

/-- A task is queued, fails and goes to review by a retry. -/
def reviewedRun : List Operation :=
  [.createMission ⟨"mission", "tenant", .queued, []⟩,
    .createTask "task" "mission" none none [], .createTask "later" "mission" none none [],
    .queueTask "task" .admitted true,
    .claimNextTask (fun _ => false) "worker" "lease" false, .startExecution "lease" "worker",
    .fail "lease" "worker" "reason" "evidence"]

theorem queued_tasks_deliverable_retried :
    let w := exec (World.step ⟨"tenant", 30⟩ .plain) .empty
      (turnsOf (reviewedRun ++ [.retryTask "task" .admitted]))
    (∃ task ∈ w.db.tasks.list, task.status = .queued) ∧
      ∀ task ∈ w.db.tasks.list, task.status = .queued → Deliverable .plain w task :=
  ⟨by decide +kernel, queued_tasks_deliverable ⟨"tenant", 30⟩ .plain _ (by decide +kernel)⟩

/-- The review of a retry is approved over the published dispatch. -/
theorem approved_retry_undeliverable :
    let w := exec (World.step ⟨"tenant", 30⟩ .plain) .empty (turnsOf (reviewedRun ++
      [.retryTask "task" .review,
        .approveReviewAndQueue "task" .admitted true [] fun metadata => .ok metadata]))
    ∃ task ∈ w.db.tasks.list, task.id = "task" ∧ task.status = .queued ∧
      ¬ Deliverable .plain w task ∧
      (w.db.dispatchForTask "tenant" "task").map RuntimeQueueDispatch.status = some .published := by
  decide +kernel

end Runs
end Ajenda.Runtime
