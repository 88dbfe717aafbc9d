import Ajenda.LeaseFencing
import Ajenda.RetryCounts

/-!
# The budget of automatic recovery

A pass of the maintainer loads its leases and tasks once and recovers one after the other, each
in a transaction of its own, while workers and other passes go on. `requeues` counts the commits
that put a task back to the queue. A recovery decides by the retry count that its pass has
loaded and writes that count plus one. The requeue of an orphaned payload checks no budget, and
counts the retry of a running task only.
-/
namespace Ajenda.Runtime
open JsonValue KeyedRows TransitionSystem
open RedisQueue (Config Store)

section Requeues

/-- The task that the recovery of an expired lease puts back to the queue. -/
def recoveryRequeues (db : Db) (maxRetries : ℕ) (leaseId : String) : Option String :=
  match db.leases.get leaseId with
  | none => none
  | some lease =>
    match db.tasks.get lease.taskId with
    | none => none
    | some task =>
      if lease.status.live && recoveryMove task maxRetries = .requeue then some task.id else none

/-- The task that a transaction of the maintainer reports as requeued when it has committed. -/
def Pending.requeues (tx : Pending) : Option String :=
  match tx.call.transaction with
  | .recoverLease maxRetries leaseId => recoveryRequeues tx.base maxRetries leaseId
  | .requeueOrphan tenantId taskId =>
      if orphanRequeued tx.base tenantId taskId then some taskId else none
  | _ => none

/-- The task that a step puts back to the queue. -/
def Event.requeues (d : Deployment) : Event → Option String
  | .commit p => (d.processes p).pending.bind fun tx =>
      if tx.accepted && (tx.merged d.db).isSome then tx.requeues else none
  | _ => none

/-- How often a run requeues the task. -/
def requeues (cfg : Config) (env : Env) (taskId : String) : Deployment → List Event → ℕ
  | _, [] => 0
  | d, event :: events =>
    (if event.requeues d = some taskId then 1 else 0) +
      requeues cfg env taskId (d.step cfg env event) events

/-- The maintainer is configured with `maxRetries`. -/
def Transaction.configured (maxRetries : ℕ) : Transaction → Bool
  | .recoverLease n _ => n = maxRetries
  | _ => true

def Event.configured (maxRetries : ℕ) : Event → Bool
  | .open _ call _ => call.transaction.configured maxRetries
  | _ => true

/-- The task is running with budget left. -/
def hasBudget (maxRetries : ℕ) (db : Db) (taskId : String) : Bool :=
  match db.tasks.get taskId with
  | none => false
  | some task => task.status = .running && task.retryCount < maxRetries

/-- A commit that writes a retry count finds it as its transaction has read it. -/
def Pending.countsAsRead (tx : Pending) (cur : Db) : Bool :=
  tx.base.tasks.list.all fun b => match tx.session.db.tasks.get b.id with
    | none => true
    | some n => n.retryCount = b.retryCount ||
        (cur.tasks.get b.id).map ExecutionTask.retryCount = some b.retryCount

/-- The transaction requeues the orphaned payload of a running task with budget left only. -/
def Pending.withinBudget (maxRetries : ℕ) (tx : Pending) : Bool :=
  match tx.call.transaction with
  | .requeueOrphan tenantId taskId =>
      !orphanRequeued tx.base tenantId taskId || hasBudget maxRetries tx.base taskId
  | _ => true

/-- Every committed recovery is counted, by a count that is up to date. -/
def Event.counted (maxRetries : ℕ) (d : Deployment) : Event → Bool
  | .commit p =>
    match (d.processes p).pending with
    | none => true
    | some tx => !tx.accepted || (tx.countsAsRead d.db && tx.withinBudget maxRetries)
  | _ => true

end Requeues

section Counts
variable {env : Env} {maxRetries : ℕ} {taskId : String} {tx : Pending} {cur db : Db}

/-- What a commit makes of the count of a task whose row the transaction has read. -/
theorem merged_count (hmerged : tx.merged cur = some db) {b n c : ExecutionTask}
    (hb : tx.base.tasks.get taskId = some b) (hn : tx.session.db.tasks.get taskId = some n)
    (hc : cur.tasks.get taskId = some c) :
    db.retries taskId = column b.retryCount n.retryCount c.retryCount := by
  have hrow := Rows.get_merge (commitOver_eq_some hmerged).1 hc
  rw [hb, hn] at hrow
  rw [retries_of_get hrow, mergeChanged_retryCount]

theorem count_as_read (hread : tx.countsAsRead cur = true) {b n : ExecutionTask}
    (hb : tx.base.tasks.get taskId = some b) (hn : tx.session.db.tasks.get taskId = some n)
    (hne : n.retryCount ≠ b.retryCount) :
    ∃ c, cur.tasks.get taskId = some c ∧ c.retryCount = b.retryCount := by
  obtain rfl : b.id = taskId := Rows.key_of_get hb
  have hall := List.all_eq_true.mp hread b (Rows.mem_of_get hb)
  rw [hn] at hall
  simp only [Bool.or_eq_true, decide_eq_true_eq, hne, false_or] at hall
  exact Option.map_eq_some_iff.mp hall

/-- A commit over counts as they were read lowers none. -/
theorem merged_retries (hrun : tx.call.run env tx.base = .ok tx.session)
    (hread : tx.countsAsRead cur = true) (hmerged : tx.merged cur = some db) :
    cur.retries ≤ db.retries := by
  intro taskId
  cases hc : cur.tasks.get taskId with
  | none => simp [Db.retries, hc]
  | some c =>
    rw [retries_of_get hc]
    have hrow := Rows.get_merge (commitOver_eq_some hmerged).1 hc
    cases hb : tx.base.tasks.get taskId with
    | none =>
      rw [hb] at hrow
      exact (retries_of_get hrow).ge
    | some b =>
      cases hn : tx.session.db.tasks.get taskId with
      | none =>
        rw [hb, hn] at hrow
        exact (retries_of_get hrow).ge
      | some n =>
        rw [merged_count hmerged hb hn hc]
        have hraised : b.retryCount ≤ n.retryCount := by
          have hle := run_retries hrun taskId
          rwa [retries_of_get hb, retries_of_get hn] at hle
        rcases column_cases b.retryCount n.retryCount c.retryCount with heq | ⟨hne, heq⟩
        · exact heq.ge
        · obtain ⟨c', hc', hsame⟩ := count_as_read hread hb hn hne
          obtain rfl := Option.some.inj (hc.symm.trans hc')
          rw [heq, hsame]
          exact hraised

/-- A recovery that requeues has read a count below the budget and raises it. -/
theorem recoverLease_requeues {s s' : Session} {leaseId : String}
    (hrun : recoverLease s maxRetries leaseId = .ok s')
    (h : recoveryRequeues s.db maxRetries leaseId = some taskId) :
    ∃ b n, s.db.tasks.get taskId = some b ∧ s'.db.tasks.get taskId = some n ∧
      b.retryCount < maxRetries ∧ n.retryCount = b.retryCount + 1 := by
  unfold recoveryRequeues at h
  split at h
  · cases h
  next lease hlease =>
    split at h
    · cases h
    next task htask =>
      split_ifs at h with hmoved
      obtain rfl := Option.some.inj h
      simp only [Bool.and_eq_true, decide_eq_true_eq] at hmoved
      obtain ⟨hlive, hmove⟩ := hmoved
      have hget : s.db.tasks.get task.id = some task := Rows.get_self htask
      have hbudget : task.retryCount < maxRetries := by
        by_contra hspent
        unfold recoveryMove at hmove
        rw [if_pos (Nat.le_of_not_lt hspent)] at hmove
        split_ifs at hmove
      rw [recoverLease_eq maxRetries hlease htask hlive] at hrun
      obtain rfl := Except.ok.inj hrun
      have hrow := get_saveTask (s := s.saveLease (lease.withStatus .expired)) hget
        (recoveredTask_id task maxRetries) task.id
      refine ⟨task, _, hget, hrow.trans (if_pos rfl), hbudget, ?_⟩
      rw [recoveredTask, hmove]

theorem requeueOrphan_running {s : Session} {tenantId : String} {task : ExecutionTask}
    (htask : s.db.tasks.get taskId = some task) (htenant : task.tenantId = tenantId)
    (hidle : hasActiveLease s.db tenantId taskId = false) (hrunning : task.status = .running) :
    requeueOrphan s tenantId taskId =
      .ok (s.saveTask { task with status := .queued, retryCount := task.retryCount + 1 }) := by
  unfold requeueOrphan
  rw [htask]
  simp [htenant, hidle, hrunning, ExecutionTaskState.terminal, enterRecovery, transitionTask,
    taskAllowed, bind, Except.bind, pure, Except.pure, ExecutionTask.withStatus]

/-- The requeue of the orphaned payload of a running task with budget left is counted. -/
theorem requeueOrphan_requeues {s s' : Session} {tenantId : String}
    (hrun : requeueOrphan s tenantId taskId = .ok s')
    (h : orphanRequeued s.db tenantId taskId = true)
    (hbudget : hasBudget maxRetries s.db taskId = true) :
    ∃ b n, s.db.tasks.get taskId = some b ∧ s'.db.tasks.get taskId = some n ∧
      b.retryCount < maxRetries ∧ n.retryCount = b.retryCount + 1 := by
  unfold orphanRequeued at h
  unfold hasBudget at hbudget
  split at h
  · cases h
  next task htask =>
    rw [htask] at hbudget
    simp only [Bool.and_eq_true, decide_eq_true_eq, Bool.not_eq_true'] at h hbudget
    obtain ⟨⟨htenant, hidle⟩, -⟩ := h
    rw [requeueOrphan_running htask htenant hidle hbudget.1] at hrun
    obtain rfl := Except.ok.inj hrun
    have hid : task.id = taskId := Rows.key_of_get htask
    have hrow := get_saveTask (s := s)
      (u := { task with status := .queued, retryCount := task.retryCount + 1 })
      (Rows.get_self htask) rfl taskId
    exact ⟨task, _, htask, hrow.trans (if_pos hid.symm), hbudget.2, rfl⟩

/-- A counted requeue finds budget left and raises the count. -/
theorem merged_requeues (hrun : tx.call.run env tx.base = .ok tx.session)
    (hconfigured : tx.call.transaction.configured maxRetries = true)
    (hread : tx.countsAsRead cur = true) (hwithin : tx.withinBudget maxRetries = true)
    (hmerged : tx.merged cur = some db) (h : tx.requeues = some taskId) :
    cur.retries taskId < maxRetries ∧ cur.retries taskId + 1 ≤ db.retries taskId := by
  obtain ⟨b, n, hb, hn, hbudget, hraised⟩ : ∃ b n, tx.base.tasks.get taskId = some b ∧
      tx.session.db.tasks.get taskId = some n ∧ b.retryCount < maxRetries ∧
        n.retryCount = b.retryCount + 1 := by
    obtain ⟨⟨amb, transaction⟩, base, session, accepted⟩ := tx
    cases transaction with
    | recoverLease k leaseId =>
      obtain rfl : k = maxRetries := of_decide_eq_true hconfigured
      exact recoverLease_requeues (s := base.open) hrun h
    | requeueOrphan tenantId id =>
      obtain ⟨hrequeued, hid⟩ := Option.ite_none_right_eq_some.1 h
      obtain rfl := Option.some.inj hid
      have hleft : hasBudget maxRetries base id = true := by
        simpa [Pending.withinBudget, hrequeued] using hwithin
      exact requeueOrphan_requeues (s := base.open) hrun hrequeued hleft
    | _ => cases h
  have hne : n.retryCount ≠ b.retryCount := by omega
  obtain ⟨c, hc, hsame⟩ := count_as_read hread hb hn hne
  rw [retries_of_get hc, merged_count hmerged hb hn hc, column, if_neg hne]
  omega

end Counts

section Runs
variable {cfg : Config} {env : Env} {maxRetries : ℕ} {taskId : String} {d : Deployment}

/-- Every transaction has run on what its session has seen, as the maintainer is configured. -/
def Deployment.Configured (env : Env) (maxRetries : ℕ) (d : Deployment) : Prop :=
  ∀ p tx, (d.processes p).pending = some tx →
    tx.call.run env tx.base = .ok tx.session ∧ tx.call.transaction.configured maxRetries = true

theorem step_configured (h : d.Configured env maxRetries) {e : Event}
    (hconfigured : e.configured maxRetries = true) :
    (d.step cfg env e).Configured env maxRetries := by
  apply step_pending (P := fun call base session => call.run env base = .ok session ∧
    call.transaction.configured maxRetries = true) h
  rintro p call kept session rfl - hrun
  exact ⟨hrun, hconfigured⟩

theorem counted_commit {p : String} {tx : Pending}
    (hcounted : Event.counted maxRetries d (.commit p) = true)
    (htx : (d.processes p).pending = some tx) (haccepted : tx.accepted = true) :
    tx.countsAsRead d.db = true ∧ tx.withinBudget maxRetries = true := by
  simpa [Event.counted, htx, haccepted] using hcounted

variable (cfg) in
theorem step_retries (h : d.Configured env maxRetries) {e : Event}
    (hcounted : e.counted maxRetries d = true) : d.db.retries ≤ (d.step cfg env e).db.retries := by
  obtain hsame | ⟨p, tx, db, rfl, htx, haccepted, hmerged, hdb⟩ := step_db cfg env d e
  · rw [hsame]
  · rw [hdb]
    exact merged_retries (h p tx htx).1 (counted_commit hcounted htx haccepted).1 hmerged

variable (cfg) in
theorem step_requeues (h : d.Configured env maxRetries) {e : Event}
    (hcounted : e.counted maxRetries d = true) (hrequeued : e.requeues d = some taskId) :
    d.db.retries taskId < maxRetries ∧
      d.db.retries taskId + 1 ≤ (d.step cfg env e).db.retries taskId := by
  cases e with
  | commit p =>
    obtain ⟨tx, htx, hrequeues⟩ := Option.bind_eq_some_iff.1 hrequeued
    obtain ⟨hcommits, hrequeues⟩ := Option.ite_none_right_eq_some.1 hrequeues
    obtain ⟨haccepted, hsome⟩ := Bool.and_eq_true_iff.1 hcommits
    obtain ⟨db, hmerged⟩ := Option.isSome_iff_exists.1 hsome
    obtain ⟨hread, hwithin⟩ := counted_commit hcounted htx haccepted
    have hdb : (d.step cfg env (.commit p)).db = db := by
      simp only [Deployment.step, htx, haccepted, if_true, commitPending, hmerged]
      rfl
    rw [hdb]
    obtain ⟨hrun, hconfigured⟩ := h p tx htx
    exact merged_requeues hrun hconfigured hread hwithin hmerged hrequeues
  | _ => cases hrequeued

/-- Along a counted run the requeues are bounded by the count and by the budget. -/
theorem requeues_le {events : List Event} {k : ℕ} (hpending : d.Configured env maxRetries)
    (hconfigured : ∀ event ∈ events, event.configured maxRetries = true)
    (hcounted : Guarded (Deployment.step cfg env) (fun d event => event.counted maxRetries d = true)
      d events)
    (hcount : k ≤ d.db.retries taskId) (hbudget : k ≤ maxRetries) :
    k + requeues cfg env taskId d events ≤
        (exec (Deployment.step cfg env) d events).db.retries taskId ∧
      k + requeues cfg env taskId d events ≤ maxRetries := by
  induction events generalizing d k with
  | nil => exact ⟨hcount, hbudget⟩
  | cons event events ih =>
    have hrest := fun e he => hconfigured e (List.mem_cons_of_mem _ he)
    have hstep : (d.step cfg env event).Configured env maxRetries :=
      step_configured hpending (hconfigured event List.mem_cons_self)
    have hgrows : d.db.retries taskId ≤ (d.step cfg env event).db.retries taskId :=
      step_retries cfg hpending hcounted.1 taskId
    rw [requeues, ← Nat.add_assoc]
    by_cases hrequeued : event.requeues d = some taskId
    · obtain ⟨hleft, hraised⟩ := step_requeues cfg hpending hcounted.1 hrequeued
      rw [if_pos hrequeued]
      exact ih hstep hrest hcounted.2 (by omega) (by omega)
    · rw [if_neg hrequeued]
      exact ih hstep hrest hcounted.2 (by omega) (by omega)

/-- A run whose recoveries are counted requeues a task at most `maxRetries` times, and the next
recovery after that dead-letters it. -/
theorem requeues_within_budget (cfg : Config) (env : Env) (maxRetries : ℕ) (events : List Event)
    (hconfigured : ∀ event ∈ events, event.configured maxRetries = true)
    (hcounted : Guarded (Deployment.step cfg env) (fun d event => event.counted maxRetries d = true)
      .empty events) (taskId : String) :
    requeues cfg env taskId .empty events ≤ maxRetries ∧
      (requeues cfg env taskId .empty events = maxRetries → ∀ task,
        (exec (Deployment.step cfg env) .empty events).db.tasks.get taskId = some task →
        task.status = .running ∨ task.status = .claimed →
        recoverTask task maxRetries = .ok (task.withStatus .deadLettered)) := by
  have hidle : Deployment.empty.Configured env maxRetries := fun _ _ h => nomatch h
  obtain ⟨hcount, hbudget⟩ := requeues_le (k := 0) hidle hconfigured hcounted
    (Nat.zero_le _) (Nat.zero_le _)
  rw [Nat.zero_add] at hcount hbudget
  refine ⟨hbudget, fun hspent task htask hworking => ?_⟩
  rw [hspent, retries_of_get htask] at hcount
  have hmove : recoveryMove task maxRetries = .deadLetter := by
    rw [recoveryMove, if_pos hworking, if_pos hcount]
  rw [recoverTask_eq, recoveredTask, hmove]

/-- A worker dies while it executes the task; a pass of the maintainer loads the lease that has
expired and recovers it. -/
def lostWorker (leaseId : String) : List Event :=
  claimedBy "worker" leaseId ++ calledBy "worker" (.start "tenant" leaseId "worker") ++
    [.queue (.leaseExpires "task"), .load "maintainer" fun _ => false,
      .open "maintainer" (callOf (.recoverLease 3 leaseId)) fun _ => true,
      .ask "maintainer" "reason", .commit "maintainer", .close "maintainer"]

theorem requeues_within_budget_spent :
    let run := queuedTask ++ lostWorker "first" ++ lostWorker "second" ++ lostWorker "third" ++
      claimedBy "worker" "last"
    requeues ⟨"tenant", 30⟩ .plain "task" .empty run = 3 ∧
      (∃ task, (exec (Deployment.step ⟨"tenant", 30⟩ .plain) .empty run).db.tasks.get "task" =
        some task ∧ recoverTask task 3 = .ok (task.withStatus .deadLettered)) := by
  intro run
  have hcount : requeues ⟨"tenant", 30⟩ .plain "task" .empty run = 3 := by decide +kernel
  have hstatus : ((exec (Deployment.step ⟨"tenant", 30⟩ .plain) .empty run).db.tasks.get
      "task").map ExecutionTask.status = some .claimed := by decide +kernel
  obtain ⟨task, htask, hclaimed⟩ := Option.map_eq_some_iff.1 hstatus
  exact ⟨hcount, task, htask, (requeues_within_budget ⟨"tenant", 30⟩ .plain 3 run
    (by decide +kernel) (by decide +kernel) "task").2 hcount task htask (.inr hclaimed)⟩

/-- A worker dies between its claim of the queue and its transaction. -/
def lostClaim : List Event :=
  [.queue (.claimNext "worker"), .queue (.leaseExpires "task")] ++
    calledBy "maintainer" (.requeueOrphan "tenant" "task")

/-- Two passes load the same expired lease before either recovers it. -/
def overlappingPasses : List Event :=
  claimedBy "worker" "lease" ++ calledBy "worker" (.start "tenant" "lease" "worker") ++
    [.queue (.leaseExpires "task"), .load "first" fun _ => false, .load "second" fun _ => false] ++
    ["first", "second"].flatMap fun pass =>
      [.open pass (callOf (.recoverLease 1 "lease")) fun _ => true, .ask pass "reason", .commit pass]

/-- Four lost claims are requeued under a budget of three, and no retry is counted; two passes
requeue a task twice under a budget of one, and count one retry. -/
theorem lost_claims_requeued :
    let lost := queuedTask ++ lostClaim ++ lostClaim ++ lostClaim ++ lostClaim
    let overlapping := queuedTask ++ overlappingPasses
    let left (run : List Event) :=
      ((exec (Deployment.step ⟨"tenant", 30⟩ .plain) .empty run).db.tasks.get "task").map
        fun task => (task.status, task.retryCount)
    ((∀ event ∈ lost, event.configured 3 = true) ∧
      requeues ⟨"tenant", 30⟩ .plain "task" .empty lost = 4 ∧ left lost = some (.queued, 0)) ∧
    (∀ event ∈ overlapping, event.configured 1 = true) ∧
      requeues ⟨"tenant", 30⟩ .plain "task" .empty overlapping = 2 ∧
      left overlapping = some (.queued, 1) := by
  decide +kernel

end Runs
end Ajenda.Runtime
