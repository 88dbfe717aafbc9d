import Ajenda.RuntimeWorld
import Ajenda.TaskDelivery

/-!
# The ledger of dispatches

Every key the queue has seen belongs to a delivery generation of a dispatch, and the current
generation of a pending dispatch is unused. A cancelled dispatch that the queue still has to
drop belongs to a cancelled task. The functions of the dispatch service keep this ledger.
-/
namespace Ajenda.Runtime
open JsonValue KeyedRows FiniteTable

section Keys

theorem toList_idempotencyKey (id : String) (generation : ℕ) :
    (idempotencyKey id generation).toList = id.toList ++
      if generation = 0 then [] else ":retry:".toList ++ generation.repr.toList := by
  unfold idempotencyKey
  split_ifs <;> simp [String.toList_append]

/-- Identifiers without a colon are read back from a key, and so is the generation. -/
theorem idempotencyKey_inj {id id' : String} {generation generation' : ℕ}
    (hid : ':' ∉ id.toList) (hid' : ':' ∉ id'.toList)
    (h : idempotencyKey id generation = idempotencyKey id' generation') :
    id = id' ∧ generation = generation' := by
  have hlist := congrArg String.toList h
  simp only [toList_idempotencyKey] at hlist
  have hspan : ∀ (l r : List Char), ':' ∉ l → (r = [] ∨ r.head? = some ':') →
      (l ++ r).takeWhile (· ≠ ':') = l := by
    intro l r hl hr
    rw [List.takeWhile_append_of_pos fun c hc => by
      simpa using fun heq : c = ':' => hl (heq ▸ hc)]
    rcases hr with rfl | hr
    · simp
    · cases r with
      | nil => simp
      | cons c r =>
        obtain rfl : c = ':' := by simpa using hr
        simp
  have htail : ∀ g : ℕ, (if g = 0 then [] else ":retry:".toList ++ g.repr.toList) = [] ∨
      (if g = 0 then [] else ":retry:".toList ++ g.repr.toList).head? = some ':' := by
    intro g
    split_ifs
    · exact .inl rfl
    · exact .inr rfl
  have hids : id.toList = id'.toList := by
    rw [← hspan _ _ hid (htail generation), ← hspan _ _ hid' (htail generation'), hlist]
  rw [hids, List.append_cancel_left_eq] at hlist
  refine ⟨String.toList_inj.mp hids, ?_⟩
  split_ifs at hlist with h₀ h₁ h₁
  · rw [h₀, h₁]
  · simp at hlist
  · simp at hlist
  · have hdigits := List.append_cancel_left hlist
    rw [Nat.toList_repr, Nat.toList_repr] at hdigits
    simpa using congrArg (Nat.ofDigitChars 10 · 0) hdigits

end Keys

/-- The generations whose keys the queue may have seen. -/
def RuntimeQueueDispatch.Spent (dispatch : RuntimeQueueDispatch) (generation : ℕ) : Prop :=
  dispatch.status ≠ .heldReview ∧ ∃ current, retryGeneration dispatch.payload = .ok current ∧
    generation ≤ current ∧ (dispatch.status = .pending → generation < current)

structure Ledger (tenantId : String) (db : Db) (keys : Table String Unit) : Prop where
  tasks : ∀ id task, db.tasks.get id = some task → task.tenantId = tenantId
  tenant : ∀ id d, db.dispatches.get id = some d → d.tenantId = tenantId
  plain : ∀ id d, db.dispatches.get id = some d → ':' ∉ id.toList
  unpublished : ∀ id d, db.dispatches.get id = some d →
    d.status = .pending ∨ d.status = .heldReview → d.published = false
  cleanup : ∀ id d, db.dispatches.get id = some d → d.status = .cancelled →
    d.published = true → d.cleaned = false →
    ∃ task, db.tasks.get d.taskId = some task ∧ task.status = .cancelled
  used : ∀ key, keys.has key = true → ∃ id d generation, db.dispatches.get id = some d ∧
    key = idempotencyKey id generation ∧ d.Spent generation

section Ledger
variable {tenantId : String} {keys : Table String Unit} {s s' : Session}

theorem Ledger.empty : Ledger tenantId Db.empty ∅ := by
  constructor <;> simp [Db.empty]

/-- New tasks of the tenant, and tasks that stay cancelled. -/
theorem Ledger.of_eq {db db' : Db} (h : Ledger tenantId db keys)
    (hdispatches : db'.dispatches = db.dispatches)
    (htasks : ∀ id task, db'.tasks.get id = some task → task.tenantId = tenantId)
    (hcancelled : ∀ id task, db.tasks.get id = some task → task.status = .cancelled →
      ∃ task', db'.tasks.get id = some task' ∧ task'.status = .cancelled) :
    Ledger tenantId db' keys := by
  refine ⟨htasks, hdispatches ▸ h.tenant, hdispatches ▸ h.plain, hdispatches ▸ h.unpublished, ?_,
    hdispatches ▸ h.used⟩
  rw [hdispatches]
  intro id d hd hstatus hpublished hcleaned
  obtain ⟨task, htask, hc⟩ := h.cleanup id d hd hstatus hpublished hcleaned
  exact hcancelled _ task htask hc

theorem Ledger.saveDispatch {d r : RuntimeQueueDispatch} (h : Ledger tenantId s.db keys)
    (hget : s.db.dispatches.get d.id = some d) (hid : r.id = d.id)
    (htenant : r.tenantId = d.tenantId)
    (hunpublished : r.status = .pending ∨ r.status = .heldReview → r.published = false)
    (hcleanup : r.status = .cancelled → r.published = true → r.cleaned = false →
      ∃ task, s.db.tasks.get r.taskId = some task ∧ task.status = .cancelled)
    (hspent : ∀ generation, d.Spent generation → r.Spent generation) :
    Ledger tenantId (s.saveDispatch r).db keys := by
  have hrow := get_saveDispatch hget hid
  refine ⟨h.tasks, fun id e he => ?_, fun id e he => ?_, fun id e he => ?_, fun id e he => ?_,
    fun key hkey => ?_⟩
  · rw [hrow] at he
    split_ifs at he with hk
    · obtain rfl := Option.some.inj he
      exact htenant.trans (h.tenant _ d hget)
    · exact h.tenant id e he
  · rw [hrow] at he
    split_ifs at he with hk
    · exact hk ▸ h.plain _ d hget
    · exact h.plain id e he
  · rw [hrow] at he
    split_ifs at he with hk
    · obtain rfl := Option.some.inj he
      exact hunpublished
    · exact h.unpublished id e he
  · rw [hrow] at he
    split_ifs at he with hk
    · obtain rfl := Option.some.inj he
      exact hcleanup
    · exact h.cleanup id e he
  · obtain ⟨id, e, generation, he, rfl, hused⟩ := h.used key hkey
    by_cases hk : id = d.id
    · subst hk
      obtain rfl : d = e := Option.some.inj (hget.symm.trans he)
      exact ⟨d.id, r, generation, (hrow d.id).trans (if_pos rfl), rfl, hspent _ hused⟩
    · exact ⟨id, e, generation, (hrow id).trans ((if_neg hk).trans he), rfl, hused⟩

theorem addDispatch_eq_ok {d : RuntimeQueueDispatch} (h : addDispatch s d = .ok s') :
    ∃ dispatches, s.db.dispatches.insert d = some dispatches ∧
      s' = { s with db := { s.db with dispatches } } := by
  unfold addDispatch at h
  split_ifs at h
  split at h
  · cases h
  next dispatches hinsert => exact ⟨dispatches, hinsert, (Except.ok.inj h).symm⟩

theorem Ledger.addDispatch {d : RuntimeQueueDispatch} (h : Ledger tenantId s.db keys)
    (htenant : d.tenantId = tenantId) (hplain : ':' ∉ d.id.toList) (hpublished : d.published = false)
    (hstatus : d.status ≠ .cancelled) (hadd : addDispatch s d = .ok s') :
    Ledger tenantId s'.db keys := by
  obtain ⟨dispatches, hinsert, rfl⟩ := addDispatch_eq_ok hadd
  have hrow := Rows.get_insert hinsert
  refine ⟨h.tasks, fun id e he => ?_, fun id e he => ?_, fun id e he => ?_, fun id e he => ?_,
    fun key hkey => ?_⟩
  · rw [hrow] at he
    split_ifs at he with hk
    · obtain rfl := Option.some.inj he
      exact htenant
    · exact h.tenant id e he
  · rw [hrow] at he
    split_ifs at he with hk
    · exact hk ▸ hplain
    · exact h.plain id e he
  · rw [hrow] at he
    split_ifs at he with hk
    · obtain rfl := Option.some.inj he
      exact fun _ => hpublished
    · exact h.unpublished id e he
  · rw [hrow] at he
    split_ifs at he with hk
    · obtain rfl := Option.some.inj he
      exact fun hc => absurd hc hstatus
    · exact h.cleanup id e he
  · obtain ⟨id, e, generation, he, rfl, hused⟩ := h.used key hkey
    have hk : id ≠ d.id := by
      rintro rfl
      have hnone : s.db.dispatches.get d.id = none := Rows.get_of_insert hinsert
      rw [hnone] at he
      cases he
    exact ⟨id, e, generation, (hrow id).trans ((if_neg hk).trans he), rfl, hused⟩

end Ledger

section Service
variable {amb : Ambient} {s s' : Session} {task : ExecutionTask}

theorem dispatchForTask_eq_some {db : Db} {tenantId taskId : String} {d : RuntimeQueueDispatch}
    (h : db.dispatchForTask tenantId taskId = some d) :
    db.dispatches.get d.id = some d ∧ d.taskId = taskId := by
  refine ⟨Rows.get_of_mem (List.mem_of_find?_eq_some h), ?_⟩
  have := List.find?_some h
  simp only [decide_eq_true_eq] at this
  exact this.2

theorem retryGeneration_set (payload : Fields) (generation : ℕ) :
    retryGeneration (Fields.set payload retryGenerationKey (natJson generation)) =
      .ok generation := by
  unfold retryGeneration natJson
  rw [Fields.get_set_self]
  simp

/-- A write that leaves the row pending arms its task and disarms none. -/
theorem armed_saveDispatch {d r : RuntimeQueueDispatch}
    (hget : s.db.dispatches.get d.id = some d) (hid : r.id = d.id)
    (htask : r.taskId = d.taskId) (hpending : r.status = .pending) :
    (∀ id, Armed s.db id → Armed (s.saveDispatch r).db id) ∧
      Armed (s.saveDispatch r).db d.taskId := by
  have hrow := get_saveDispatch hget hid
  have hself : (s.saveDispatch r).db.dispatches.get d.id = some r :=
    (hrow d.id).trans (if_pos rfl)
  refine ⟨?_, d.id, r, hself, htask, hpending⟩
  rintro id ⟨k, e, he, rfl, hstatus⟩
  by_cases hk : k = d.id
  · subst hk
    obtain rfl : d = e := Option.some.inj (hget.symm.trans he)
    exact ⟨d.id, r, hself, htask, hpending⟩
  · exact ⟨k, e, (hrow k).trans ((if_neg hk).trans he), rfl, hstatus⟩

/-- What a call of the dispatch service may do: the tasks stay, no task is disarmed and the
ledger is kept. -/
structure Dispatched (s s' : Session) : Prop where
  tasks : s'.db.tasks = s.db.tasks
  armed : ∀ id, Armed s.db id → Armed s'.db id
  ledger : ∀ tenantId keys, Ledger tenantId s.db keys → Ledger tenantId s'.db keys

theorem Dispatched.refl (s : Session) : Dispatched s s := ⟨rfl, fun _ h => h, fun _ _ h => h⟩

theorem Dispatched.schedule {d : RuntimeQueueDispatch} (h : Dispatched s s') :
    Dispatched s (scheduleAfterCommit s' d) := by
  have hdb := scheduleAfterCommit_db s' d
  exact ⟨hdb ▸ h.tasks, hdb ▸ h.armed, hdb ▸ h.ledger⟩

theorem releaseReviewHold_dispatched (h : releaseReviewHold s task = .ok s') :
    Dispatched s s' ∧ Armed s'.db task.id := by
  unfold releaseReviewHold at h
  split at h
  · cases h
  next d hd =>
    split_ifs at h with hheld
    rw [not_not] at hheld
    obtain rfl := Except.ok.inj h
    obtain ⟨hget, htask⟩ := dispatchForTask_eq_some hd
    obtain ⟨harmed, hself⟩ := armed_saveDispatch
      (r := { d with status := .pending, payload := task.metadata }) hget rfl rfl rfl
    refine ⟨Dispatched.schedule ⟨rfl, harmed, fun tenantId keys hledger => ?_⟩, ?_⟩
    · refine hledger.saveDispatch hget rfl rfl (fun _ => ?_) (fun hc => by cases hc)
        (fun _ hspent => absurd hheld hspent.1)
      exact hledger.unpublished _ d hget (.inr hheld)
    · rw [scheduleAfterCommit_db, ← htask]
      exact hself

theorem armed_addDispatch {d : RuntimeQueueDispatch} (h : addDispatch s d = .ok s') :
    (∀ id, Armed s.db id → Armed s'.db id) ∧ (d.status = .pending → Armed s'.db d.taskId) := by
  obtain ⟨dispatches, hinsert, rfl⟩ := addDispatch_eq_ok h
  have hrow := Rows.get_insert hinsert
  refine ⟨?_, fun hpending => ⟨d.id, d, (hrow d.id).trans (if_pos rfl), rfl, hpending⟩⟩
  rintro id ⟨k, e, he, rfl, hstatus⟩
  have hk : k ≠ d.id := by
    rintro rfl
    have hnone : s.db.dispatches.get d.id = none := Rows.get_of_insert hinsert
    rw [hnone] at he
    cases he
  exact ⟨k, e, (hrow k).trans ((if_neg hk).trans he), rfl, hstatus⟩

variable (hplain : ∀ taskId, ':' ∉ (amb.dispatchId taskId).toList)
  (hstored : ∃ t, s.db.tasks.get task.id = some t ∧ t.tenantId = task.tenantId)
include hplain hstored

/-- An admission arms a task that has no dispatch, or whose dispatch is held or pending. -/
theorem admit_dispatched {held created : Bool} (h : admitTask amb s task held = .ok (s', created)) :
    Dispatched s s' ∧ (held = false → (∀ d, s.db.dispatchForTask task.tenantId task.id = some d →
      d.status = .heldReview ∨ d.status = .pending) → Armed s'.db task.id) := by
  unfold admitTask at h
  split at h
  next d hd =>
    obtain ⟨hget, htask⟩ := dispatchForTask_eq_some hd
    split_ifs at h with hrelease
    · obtain ⟨s₁, hs₁, hrest⟩ := bind_eq_ok.mp h
      obtain ⟨rfl, -⟩ := Prod.mk.inj (Except.ok.inj hrest)
      obtain ⟨hdispatched, harmed⟩ := releaseReviewHold_dispatched hs₁
      exact ⟨hdispatched, fun _ _ => harmed⟩
    · obtain ⟨rfl, -⟩ := Prod.mk.inj (Except.ok.inj h)
      refine ⟨.refl s, fun hheld hstatus => ⟨d.id, d, hget, htask, ?_⟩⟩
      rcases hstatus d hd with hd' | hd'
      · simp [hheld, hd'] at hrelease
      · exact hd'
  · obtain ⟨s₁, hadd, hrest⟩ := bind_eq_ok.mp h
    obtain ⟨rfl, -⟩ := Prod.mk.inj (Except.ok.inj hrest)
    obtain ⟨harmed, hself⟩ := armed_addDispatch hadd
    have hdispatched : Dispatched s s₁ := by
      refine ⟨by rw [addDispatch_db hadd], harmed, fun tenantId keys hledger => ?_⟩
      obtain ⟨t, ht, htenant⟩ := hstored
      refine hledger.addDispatch (htenant ▸ hledger.tasks _ t ht) (hplain task.id) rfl ?_ hadd
      dsimp only
      split_ifs <;> simp
    cases held with
    | true => exact ⟨hdispatched, fun hheld => by cases hheld⟩
    | false =>
      refine ⟨hdispatched.schedule, fun _ _ => ?_⟩
      rw [if_neg (by simp), scheduleAfterCommit_db]
      exact hself rfl

/-- A retry arms its task. -/
theorem retry_dispatched (h : retry amb s task = .ok s') :
    Dispatched s s' ∧ Armed s'.db task.id := by
  unfold retry at h
  split at h
  next hnone =>
    obtain ⟨⟨s₁, created⟩, hadmission, hrest⟩ := bind_eq_ok.mp h
    obtain rfl := Except.ok.inj hrest
    obtain ⟨hdispatched, harmed⟩ := admit_dispatched hplain hstored hadmission
    exact ⟨hdispatched, harmed rfl fun d hd => by rw [hnone] at hd; cases hd⟩
  next d hd =>
    obtain ⟨hget, htask⟩ := dispatchForTask_eq_some hd
    obtain ⟨generation, hgeneration, hrest⟩ := bind_eq_ok.mp h
    obtain rfl := Except.ok.inj hrest
    obtain ⟨harmed, hself⟩ := armed_saveDispatch (r := { d with
      payload := Fields.set task.metadata retryGenerationKey (natJson (generation + 1)),
      status := .pending, published := false, cleaned := false }) hget rfl rfl rfl
    refine ⟨Dispatched.schedule ⟨rfl, harmed, fun tenantId keys hledger => ?_⟩, ?_⟩
    · refine hledger.saveDispatch hget rfl rfl (fun _ => rfl) (fun hc => by cases hc) ?_
      rintro g ⟨-, current, hcurrent, hle, -⟩
      obtain rfl := Except.ok.inj (hcurrent.symm.trans hgeneration)
      exact ⟨by simp, current + 1, retryGeneration_set _ _, by omega, fun _ => by omega⟩
    · rw [scheduleAfterCommit_db, ← htask]
      exact hself

end Service
end Ajenda.Runtime
