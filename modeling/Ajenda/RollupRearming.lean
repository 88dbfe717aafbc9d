import Ajenda.RollupTermination

/-!
# Re-arming the dispatches of a mission

The two re-admitting loops of a rollup re-arm the dispatch of every ready dependent that waits.
Re-arming one task does not concern the others, so the loops go through exactly when each of
these tasks can be re-armed.
-/
namespace Ajenda.Runtime
open JsonValue KeyedRows Relation FailurePropagation

/-- Queued with a deferral, or blocked by a rollup for a failed dependency. -/
def AwaitsReadmission (t : ExecutionTask) : Prop :=
  t.status = .queued ∧ t.dependencyDeferred = true ∨
    t.status = .blocked ∧ t.blockedByDependencyFailure.isSome = true

/-- The dispatcher can re-arm the task: its dispatch has a generation, or one can be added. -/
def Arms (amb : Ambient) (s : Session) (t : ExecutionTask) : Prop :=
  match s.db.dispatchForTask t.tenantId t.id with
  | some d => ∃ generation, retryGeneration d.payload = .ok generation
  | none => (∀ d ∈ s.db.dispatches.list, d.taskId ≠ t.id) ∧
      s.db.dispatches.get (amb.dispatchId t.id) = none

/-- A rollup can re-arm the task. One that it re-admits with a deferral it re-arms twice, and the
second time reads the generation of the dispatch that was added the first time. -/
structure Rearms (amb : Ambient) (s : Session) (t : ExecutionTask) : Prop where
  arms : Arms amb s t
  twice : t.status = .blocked → t.dependencyDeferred = true →
    s.db.dispatchForTask t.tenantId t.id = none →
      ∃ generation, retryGeneration t.metadata = .ok generation

/-- The dispatch that re-arming adds for a task without one. -/
def addedDispatch (amb : Ambient) (t : ExecutionTask) : RuntimeQueueDispatch where
  id := amb.dispatchId t.id
  tenantId := t.tenantId
  taskId := t.id
  missionId := t.missionId
  fleetId := t.fleetId
  branchId := t.branchId
  payload := t.metadata
  status := .pending
  published := false
  cleaned := false
  createdAt := amb.now

/-- Every dependent that waits and whose dependencies are completed can be re-armed. -/
def ReadyRearm (env : Env) (amb : Ambient) (s : Session) (missionId : String) : Prop :=
  ∀ t ∈ s.db.listForMission missionId, AwaitsReadmission t →
    dependenciesCompleted env (s.db.listForMission missionId) t = true → Rearms amb s t

section Rearming
variable {env : Env} {amb : Ambient} {s s' : Session} {t u : ExecutionTask}

theorem readyRearm_saveMission {mission : Mission} {missionId : String} :
    ReadyRearm env amb (s.saveMission mission) missionId ↔ ReadyRearm env amb s missionId :=
  forall₄_congr fun _ _ _ _ => ⟨fun h => ⟨h.arms, h.twice⟩, fun h => ⟨h.arms, h.twice⟩⟩

/-- Where every task of the mission has a dispatch that can be delivered again, the rollup can
re-arm them all. -/
theorem readyRearm_of_redelivers {missionId : String} (h : MissionRedelivers s missionId) :
    ReadyRearm env amb s missionId := by
  intro t ht _ _
  obtain ⟨d, generation, hd, hgeneration⟩ := redelivers_of_mem h ht
  refine ⟨?_, fun _ _ hnone => ?_⟩
  · rw [Arms, hd]
    exact ⟨generation, hgeneration⟩
  · rw [hd] at hnone
    cases hnone

theorem addDispatch_ok {d : RuntimeQueueDispatch} : (∃ s', addDispatch s d = .ok s') ↔
    (∀ q ∈ s.db.dispatches.list, q.taskId ≠ d.taskId) ∧ s.db.dispatches.get d.id = none := by
  unfold addDispatch
  split_ifs with htaken
  · obtain ⟨q, hq, htask⟩ := List.any_eq_true.1 htaken
    simp only [exists_false, false_iff, not_and]
    exact fun hfree => absurd (of_decide_eq_true htask) (hfree q hq)
  · have hfree : ∀ q ∈ s.db.dispatches.list, q.taskId ≠ d.taskId := by
      simpa using htaken
    cases hinsert : s.db.dispatches.insert d with
    | none =>
      simp only [reduceCtorEq, exists_false, false_iff, not_and]
      intro _ hget
      unfold Rows.insert at hinsert
      split_ifs at hinsert with hkey
      obtain ⟨q, hq, hqd⟩ := List.mem_map.1 hkey
      have hrow := Rows.get_of_mem hq
      rw [hqd] at hrow
      exact absurd (hrow.symm.trans hget) (by simp)
    | some rows =>
      simp only [Except.ok.injEq, exists_eq', true_iff]
      exact ⟨hfree, Rows.get_of_insert hinsert⟩

theorem retry_of_none (h : s.db.dispatchForTask t.tenantId t.id = none) :
    retry amb s t = .ok s' ↔ ∃ s₁, addDispatch s (addedDispatch amb t) = .ok s₁ ∧
      s' = scheduleAfterCommit s₁ (addedDispatch amb t) := by
  simp only [retry, admitTask, h]
  constructor
  · intro hretry
    obtain ⟨⟨s₂, created⟩, hadmit, hs⟩ := bind_eq_ok.1 hretry
    obtain ⟨s₁, hadd, hs₂⟩ := bind_eq_ok.1 hadmit
    obtain ⟨rfl, -⟩ := Prod.mk.inj (Except.ok.inj hs₂)
    exact ⟨s₁, hadd, (Except.ok.inj hs).symm⟩
  · rintro ⟨s₁, hadd, rfl⟩
    exact bind_eq_ok.2 ⟨_, bind_eq_ok.2 ⟨s₁, hadd, rfl⟩, rfl⟩

/-- Re-arming an existing dispatch replaces its row. -/
theorem retry_of_some {d : RuntimeQueueDispatch}
    (h : s.db.dispatchForTask t.tenantId t.id = some d) (hretry : retry amb s t = .ok s') :
    ∃ d', SameDispatch d d' ∧ d'.id = d.id ∧ (∃ g, retryGeneration d'.payload = .ok g) ∧
      s'.db.dispatches = s.db.dispatches.set d' := by
  simp only [retry, h] at hretry
  obtain ⟨generation, hgeneration, hs⟩ := bind_eq_ok.1 hretry
  let d' : RuntimeQueueDispatch :=
    { d with
      payload := Fields.set t.metadata retryGenerationKey (natJson (generation + 1))
      status := .pending, published := false, cleaned := false }
  have hnext : ∃ g, retryGeneration d'.payload = .ok g := ⟨generation + 1, retryGeneration_set _ _⟩
  have hs' : scheduleAfterCommit (s.saveDispatch d') d' = s' := Except.ok.inj hs
  refine ⟨d', ⟨rfl, rfl, fun _ => hnext⟩, rfl, hnext, ?_⟩
  rw [← hs', scheduleAfterCommit_db]
  rfl

/-- Re-arming a task without a dispatch adds one. -/
theorem retry_of_none_rows (h : s.db.dispatchForTask t.tenantId t.id = none)
    (hretry : retry amb s t = .ok s') :
    s.db.dispatches.insert (addedDispatch amb t) = some s'.db.dispatches := by
  obtain ⟨s₁, hadd, rfl⟩ := (retry_of_none h).1 hretry
  rw [scheduleAfterCommit_db]
  unfold addDispatch at hadd
  split_ifs at hadd
  split at hadd
  next => cases hadd
  next hinsert =>
    obtain rfl := Except.ok.inj hadd
    exact hinsert

theorem dispatchForTask_eq (db : Db) (tenantId taskId : String) :
    db.dispatchForTask tenantId taskId =
      (db.dispatches.list.filter fun d => d.taskId = taskId).find? fun d => d.tenantId = tenantId := by
  rw [List.find?_filter, Db.dispatchForTask]
  simp only [decide_eq_true_eq, Bool.decide_and, and_comm]

/-- Whether a task can be re-armed is read off its own dispatches and the drawn id. -/
theorem arms_congr
    (hrows : s'.db.dispatches.list.filter (fun d => d.taskId = t.id) =
      s.db.dispatches.list.filter fun d => d.taskId = t.id)
    (hdrawn : s'.db.dispatches.get (amb.dispatchId t.id) = none ↔
      s.db.dispatches.get (amb.dispatchId t.id) = none) :
    Arms amb s' t ↔ Arms amb s t := by
  have htaken : ∀ db : Db, (∀ d ∈ db.dispatches.list, d.taskId ≠ t.id) ↔
      (db.dispatches.list.filter fun d => d.taskId = t.id) = [] := by
    intro db
    simp [List.filter_eq_nil_iff]
  unfold Arms
  rw [dispatchForTask_eq, dispatchForTask_eq, htaken, htaken, hrows]
  split
  · rfl
  · exact and_congr_right fun _ => hdrawn

theorem retry_ok_iff : (∃ s', retry amb s t = .ok s') ↔ Arms amb s t := by
  unfold Arms
  cases hd : s.db.dispatchForTask t.tenantId t.id with
  | some d =>
    simp only [retry, hd]
    constructor
    · rintro ⟨s', h⟩
      obtain ⟨generation, hgeneration, -⟩ := bind_eq_ok.1 h
      exact ⟨generation, hgeneration⟩
    · rintro ⟨generation, hgeneration⟩
      exact ⟨_, bind_eq_ok.2 ⟨generation, hgeneration, rfl⟩⟩
  | none =>
    simp only [retry_of_none hd]
    rw [exists_comm]
    simp only [exists_and_left, exists_eq, and_true]
    exact addDispatch_ok

/-- Re-arming another task leaves the dispatches of a task. -/
theorem retry_rows_other (hne : t.id ≠ u.id) (h : retry amb s u = .ok s') :
    s'.db.dispatches.list.filter (fun d => d.taskId = t.id) =
      s.db.dispatches.list.filter fun d => d.taskId = t.id := by
  cases hd : s.db.dispatchForTask u.tenantId u.id with
  | some d =>
    obtain ⟨d', hsame, hid, -, hrows⟩ := retry_of_some hd h
    have hrow : s.db.dispatches.get (Keyed.key d) = some d :=
      Rows.get_of_mem (List.mem_of_find?_eq_some hd)
    have htask : d.taskId = u.id := by
      have hfound := List.find?_some hd
      simp only [Bool.decide_and, Bool.and_eq_true, decide_eq_true_eq] at hfound
      exact hfound.2
    rw [hrows]
    refine filter_map_same fun q hq => ?_
    by_cases hqd : q.id = d.id
    · have hq' : s.db.dispatches.get (Keyed.key q) = some q := Rows.get_of_mem hq
      have hkey : Keyed.key q = Keyed.key d := hqd
      rw [hkey, hrow] at hq'
      obtain rfl := Option.some.inj hq'
      simp [Keyed.key, hid, hsame.taskId, htask, Ne.symm hne]
    · simp [Keyed.key, hid, hqd]
  | none =>
    have hinsert := retry_of_none_rows hd h
    unfold Rows.insert at hinsert
    split_ifs at hinsert
    rw [← Option.some.inj hinsert]
    simp [addedDispatch, Ne.symm hne]

theorem retry_dispatch_other (hne : t.id ≠ u.id) (h : retry amb s u = .ok s') :
    s'.db.dispatchForTask t.tenantId t.id = s.db.dispatchForTask t.tenantId t.id := by
  rw [dispatchForTask_eq, dispatchForTask_eq, retry_rows_other hne h]

/-- Re-arming another task does not change whether a task can be re-armed. -/
theorem retry_arms_other (hids : Function.Injective amb.dispatchId) (hne : t.id ≠ u.id)
    (h : retry amb s u = .ok s') : Arms amb s' t ↔ Arms amb s t := by
  refine arms_congr (retry_rows_other hne h) ?_
  cases hd : s.db.dispatchForTask u.tenantId u.id with
  | some d =>
    obtain ⟨d', -, hid, -, hrows⟩ := retry_of_some hd h
    have hrow : s.db.dispatches.get (Keyed.key d) = some d :=
      Rows.get_of_mem (List.mem_of_find?_eq_some hd)
    rw [hrows, Rows.get_set_of_get hrow hid]
    split_ifs with hdrawn
    · rw [hdrawn, hrow]
      simp
    · rfl
  | none =>
    have hdrawn : amb.dispatchId t.id ≠ Keyed.key (addedDispatch amb u) :=
      fun heq => hne (hids heq)
    rw [Rows.get_insert (retry_of_none_rows hd h), if_neg hdrawn]

/-- A task that was re-armed can be re-armed again unless its dispatch was added and its metadata
has an invalid generation. -/
theorem retry_arms_self (hid : t.id = u.id) (htenant : t.tenantId = u.tenantId)
    (h : retry amb s u = .ok s') : Arms amb s' t ↔
      (s.db.dispatchForTask u.tenantId u.id = none → ∃ g, retryGeneration u.metadata = .ok g) := by
  unfold Arms
  rw [hid, htenant]
  cases hd : s.db.dispatchForTask u.tenantId u.id with
  | some d =>
    obtain ⟨g, hg⟩ : ∃ g, retryGeneration d.payload = .ok g := by
      have harms := retry_ok_iff.1 ⟨s', h⟩
      simpa only [Arms, hd] using harms
    obtain ⟨s₁, hs₁, hrelated⟩ := retry_succeeds amb ⟨d, g, hd, hg⟩
    obtain rfl : s₁ = s' := Except.ok.inj (hs₁.symm.trans h)
    obtain ⟨d', g', hd', hg'⟩ := redelivers_of_related hrelated ⟨d, g, hd, hg⟩
    simp [hd', hg']
  | none =>
    have hinsert := retry_of_none_rows hd h
    have hfound : s'.db.dispatchForTask u.tenantId u.id = some (addedDispatch amb u) := by
      unfold Rows.insert at hinsert
      split_ifs at hinsert
      rw [Db.dispatchForTask] at hd ⊢
      rw [← Option.some.inj hinsert, List.find?_append, hd]
      simp [addedDispatch]
    simp [hfound, addedDispatch]

theorem arms_same (hid : t.id = u.id) (htenant : t.tenantId = u.tenantId) :
    Arms amb s t ↔ Arms amb s u := by
  rw [Arms, hid, htenant, Arms]

/-- A re-admission saves the task first, which changes no dispatch. -/
theorem readmitTask_arms_other (hids : Function.Injective amb.dispatchId)
    {f : ExecutionTask → ExecutionTask} (hf : (f u).id = u.id) (hne : t.id ≠ u.id)
    (h : readmitTask amb f s u = .ok s') : (Arms amb s' t ↔ Arms amb s t) ∧
      s'.db.dispatchForTask t.tenantId t.id = s.db.dispatchForTask t.tenantId t.id := by
  have hretry : retry amb (s.saveTask (f u)) (f u) = .ok s' := h
  have hne' : t.id ≠ (f u).id := hf.symm ▸ hne
  have harms := retry_arms_other hids hne' hretry
  have hdispatch := retry_dispatch_other hne' hretry
  exact ⟨harms, hdispatch⟩

theorem readmitTask_ok_iff {f : ExecutionTask → ExecutionTask}
    (hf : (f u).id = u.id ∧ (f u).tenantId = u.tenantId) :
    (∃ s', readmitTask amb f s u = .ok s') ↔ Arms amb s u := by
  have hretry : (∃ s', retry amb (s.saveTask (f u)) (f u) = .ok s') ↔
      Arms amb (s.saveTask (f u)) (f u) := retry_ok_iff
  rw [arms_same hf.1 hf.2] at hretry
  exact hretry

theorem readmitTask_arms_self {f : ExecutionTask → ExecutionTask}
    (hf : (f u).id = u.id ∧ (f u).tenantId = u.tenantId) (h : readmitTask amb f s u = .ok s') :
    Arms amb s' u ↔ (s.db.dispatchForTask u.tenantId u.id = none →
      ∃ g, retryGeneration (f u).metadata = .ok g) := by
  have hretry : retry amb (s.saveTask (f u)) (f u) = .ok s' := h
  rw [retry_arms_self hf.1.symm hf.2.symm hretry, hf.1, hf.2]
  rfl

/-- A fold of re-admissions goes through when each of its tasks can be re-armed; what it changes
for a later re-arming concerns its own tasks. -/
theorem foldlM_readmit_iff (hids : Function.Injective amb.dispatchId)
    (f : ExecutionTask → ExecutionTask) (hf : ∀ t, (f t).id = t.id ∧ (f t).tenantId = t.tenantId)
    (s : Session) {l : List ExecutionTask} (hnodup : (l.map ExecutionTask.id).Nodup) :
    ((∃ s', l.foldlM (readmitTask amb f) s = .ok s') ↔ ∀ t ∈ l, Arms amb s t) ∧
      ∀ s', l.foldlM (readmitTask amb f) s = .ok s' →
        (∀ t, t.id ∉ l.map ExecutionTask.id → (Arms amb s' t ↔ Arms amb s t)) ∧
        ∀ t ∈ l, Arms amb s' t ↔ (s.db.dispatchForTask t.tenantId t.id = none →
          ∃ g, retryGeneration (f t).metadata = .ok g) := by
  induction l generalizing s with
  | nil =>
    refine ⟨⟨fun _ => by simp, fun _ => ⟨s, rfl⟩⟩, fun s' h => ?_⟩
    obtain rfl := Except.ok.inj h
    simp
  | cons v l ih =>
    rw [List.map_cons, List.nodup_cons] at hnodup
    have hne : ∀ t ∈ l, t.id ≠ v.id := fun t ht heq =>
      hnodup.1 (heq ▸ List.mem_map_of_mem ht)
    refine ⟨⟨?_, ?_⟩, ?_⟩
    · rintro ⟨s', h⟩
      obtain ⟨s₁, hv, hrest⟩ := bind_eq_ok.1 h
      refine List.forall_mem_cons.2 ⟨(readmitTask_ok_iff (hf v)).1 ⟨s₁, hv⟩, fun t ht => ?_⟩
      exact (readmitTask_arms_other hids (hf v).1 (hne t ht) hv).1.1
        ((ih _ hnodup.2).1.1 ⟨s', hrest⟩ t ht)
    · intro h
      obtain ⟨s₁, hv⟩ := (readmitTask_ok_iff (hf v)).2 (h v List.mem_cons_self)
      have hrest : ∀ t ∈ l, Arms amb s₁ t := fun t ht =>
        (readmitTask_arms_other hids (hf v).1 (hne t ht) hv).1.2 (h t (List.mem_cons_of_mem _ ht))
      obtain ⟨s', hs'⟩ := (ih _ hnodup.2).1.2 hrest
      exact ⟨s', bind_eq_ok.2 ⟨s₁, hv, hs'⟩⟩
    · intro s' h
      obtain ⟨s₁, hv, hrest⟩ := bind_eq_ok.1 h
      obtain ⟨houtside, hinside⟩ := (ih _ hnodup.2).2 s' hrest
      refine ⟨fun t ht => ?_, List.forall_mem_cons.2 ⟨?_, fun t ht => ?_⟩⟩
      · rw [List.map_cons, List.mem_cons, not_or] at ht
        exact (houtside t ht.2).trans (readmitTask_arms_other hids (hf v).1 ht.1 hv).1
      · exact (houtside v hnodup.1).trans (readmitTask_arms_self (hf v) hv)
      · rw [hinside t ht, (readmitTask_arms_other hids (hf v).1 (hne t ht) hv).2]

end Rearming

section Readmission
variable {env : Env} {amb : Ambient} {now : String} {s s' : Session} {missionId : String}
  {siblings origin : List ExecutionTask}

theorem dependencyDeferred_redispatch (t : ExecutionTask) :
    (redispatchDependent now t).dependencyDeferred = false := by
  simp [ExecutionTask.dependencyDeferred, redispatchDependent, Fields.get_set]

theorem dependencyDeferred_block {failedKeys : List String} (t : ExecutionTask) :
    (blockDependent env failedKeys t).dependencyDeferred = t.dependencyDeferred := by
  simp [ExecutionTask.dependencyDeferred, blockDependent, Fields.get_set]

/-- The row of a task after the two re-admitting loops. -/
def readmitRow (env : Env) (now : String) (siblings : List ExecutionTask) (u : ExecutionTask) :
    ExecutionTask :=
  let recovered := if recoverable env siblings u then recoverDependent env now u else u
  if redispatchable env (recoverPass env now siblings) recovered then
    redispatchDependent now recovered else recovered

theorem readmitPass_eq_map :
    readmitPass env now siblings = siblings.map (readmitRow env now siblings) := by
  rw [readmitPass, redispatchPass, recoverPass, List.map_map]
  rfl

theorem readmitRow_same (u : ExecutionTask) : SameNode u (readmitRow env now siblings u) := by
  have hrecovered : SameNode u
      (if recoverable env siblings u then recoverDependent env now u else u) := by
    split_ifs with h
    · exact recoverDependent_same (recoverable_status h)
    · exact .refl u
  have hredispatched : ∀ v, SameNode v
      (if redispatchable env (recoverPass env now siblings) v then redispatchDependent now v
        else v) := by
    intro v
    split_ifs
    · exact redispatchDependent_same v
    · exact .refl v
  exact hrecovered.trans (hredispatched _)

theorem recoverPass_completed {u u' : ExecutionTask} (h : SameNode u u') :
    dependenciesCompleted env (recoverPass env now siblings) u' =
      dependenciesCompleted env siblings u :=
  dependenciesCompleted_same recoverPass_same h

/-- A ready dependent that is queued or marked is queued without a deferral after the loops. -/
theorem readmitRow_of_ready {u : ExecutionTask} (h : dependenciesCompleted env siblings u = true)
    (hstatus : u.status = .queued ∨
      u.status = .blocked ∧ u.blockedByDependencyFailure.isSome = true) :
    (readmitRow env now siblings u).status = .queued ∧
      (readmitRow env now siblings u).dependencyDeferred = false := by
  set recovered := if recoverable env siblings u then recoverDependent env now u else u
    with hrecovered
  have hqueued : recovered.status = .queued ∧ SameNode u recovered := by
    rw [hrecovered]
    rcases hstatus with hqueued | ⟨hblocked, hmark⟩
    · have hnot : recoverable env siblings u = false := by simp [recoverable, hqueued]
      simp only [hnot, Bool.false_eq_true, if_false]
      exact ⟨hqueued, .refl u⟩
    · have hrecoverable : recoverable env siblings u = true := by
        simp [recoverable, hblocked, hmark, h]
      simp only [hrecoverable, if_true]
      exact ⟨rfl, recoverDependent_same hblocked⟩
  have hrow : readmitRow env now siblings u =
      if redispatchable env (recoverPass env now siblings) recovered then
        redispatchDependent now recovered else recovered := rfl
  have hready : dependenciesCompleted env (recoverPass env now siblings) recovered = true := by
    rw [recoverPass_completed hqueued.2, h]
  rw [hrow]
  cases hdeferred : recovered.dependencyDeferred with
  | true =>
    have hredispatchable : redispatchable env (recoverPass env now siblings) recovered = true := by
      simp [redispatchable, hqueued.1, hdeferred, hready]
    rw [if_pos hredispatchable]
    exact ⟨hqueued.1, dependencyDeferred_redispatch recovered⟩
  | false =>
    have hredispatchable : ¬redispatchable env (recoverPass env now siblings) recovered = true := by
      simp [redispatchable, hdeferred]
    rw [if_neg hredispatchable]
    exact ⟨hqueued.1, hdeferred⟩

theorem dependencyDeferred_recover (t : ExecutionTask) :
    (recoverDependent env now t).dependencyDeferred = t.dependencyDeferred := by
  simp [ExecutionTask.dependencyDeferred, recoverDependent, Fields.get_set, Fields.get_pop]

theorem retryGeneration_recover (t : ExecutionTask) :
    retryGeneration (recoverDependent env now t).metadata = retryGeneration t.metadata := by
  simp [retryGeneration, recoverDependent, retryGenerationKey, Fields.get_set, Fields.get_pop]

theorem redispatchable_recover {t : ExecutionTask} (h : recoverable env siblings t = true) :
    redispatchable env (recoverPass env now siblings) (recoverDependent env now t) =
      t.dependencyDeferred := by
  have hready : dependenciesCompleted env siblings t = true := by
    simp only [recoverable, Bool.and_eq_true] at h
    exact h.2
  rw [redispatchable, dependencyDeferred_recover,
    recoverPass_completed (recoverDependent_same (recoverable_status h)), hready]
  simp [recoverDependent]

theorem redispatchable_recoverPass (t : ExecutionTask) :
    redispatchable env (recoverPass env now siblings) t = redispatchable env siblings t := by
  rw [redispatchable, redispatchable, recoverPass_completed (.refl t)]

/-- What the second loop asks, once the first has gone through. -/
theorem redispatch_arms_iff (hids : Function.Injective amb.dispatchId)
    (h : ((s.db.listForMission missionId).filter
      (recoverable env (s.db.listForMission missionId))).foldlM
        (readmitTask amb (recoverDependent env amb.now)) s = .ok s') :
    (∀ t ∈ (s'.db.listForMission missionId).filter
        (redispatchable env (s'.db.listForMission missionId)), Arms amb s' t) ↔
      ∀ t ∈ s.db.listForMission missionId,
        (recoverable env (s.db.listForMission missionId) t = true →
          t.dependencyDeferred = true → s.db.dispatchForTask t.tenantId t.id = none →
            ∃ g, retryGeneration t.metadata = .ok g) ∧
        (redispatchable env (s.db.listForMission missionId) t = true → Arms amb s t) := by
  have hnodup := listForMission_nodup s.db missionId
  obtain ⟨houtside, hinside⟩ := (foldlM_readmit_iff hids (recoverDependent env amb.now)
    (fun _ => ⟨rfl, rfl⟩) s ((List.filter_sublist.map _).nodup hnodup)).2 s' h
  have hlist : s'.db.listForMission missionId =
      recoverPass env amb.now (s.db.listForMission missionId) :=
    listForMission_readmit (fun _ => rfl) (fun _ => ⟨rfl, rfl⟩) h
  rw [hlist]
  simp only [List.mem_filter, and_imp]
  rw [recoverPass, List.forall_mem_map, ← recoverPass]
  refine forall₂_congr fun t ht => ?_
  cases hrecoverable : recoverable env (s.db.listForMission missionId) t with
  | true =>
    have hqueued : redispatchable env (s.db.listForMission missionId) t = false := by
      simp [redispatchable, recoverable_status hrecoverable]
    have hself := hinside t (List.mem_filter.2 ⟨ht, hrecoverable⟩)
    rw [retryGeneration_recover] at hself
    have hrecovered : Arms amb s' (recoverDependent env amb.now t) ↔ Arms amb s' t :=
      arms_same rfl rfl
    rw [if_pos rfl, redispatchable_recover hrecoverable, hrecovered, hself]
    simp [hqueued]
  | false =>
    have hother : t.id ∉ ((s.db.listForMission missionId).filter
        (recoverable env (s.db.listForMission missionId))).map ExecutionTask.id := by
      rw [List.mem_map]
      rintro ⟨u, hu, hid⟩
      obtain ⟨hu, hurecoverable⟩ := List.mem_filter.1 hu
      obtain rfl := List.inj_on_of_nodup_map hnodup hu ht hid
      rw [hrecoverable] at hurecoverable
      cases hurecoverable
    rw [if_neg Bool.false_ne_true, redispatchable_recoverPass, houtside t hother]
    simp

/-- The two re-admitting loops go through when each can re-arm what it queues. -/
theorem readmitLoops_iff (hids : Function.Injective amb.dispatchId) :
    (∃ s', readmitDependents env amb s missionId = .ok s') ↔
      ∀ t ∈ s.db.listForMission missionId,
        (recoverable env (s.db.listForMission missionId) t = true → Arms amb s t) ∧
        (recoverable env (s.db.listForMission missionId) t = true →
          t.dependencyDeferred = true → s.db.dispatchForTask t.tenantId t.id = none →
            ∃ g, retryGeneration t.metadata = .ok g) ∧
        (redispatchable env (s.db.listForMission missionId) t = true → Arms amb s t) := by
  have hnodup := listForMission_nodup s.db missionId
  have hfirst : (∃ s₁, ((s.db.listForMission missionId).filter
      (recoverable env (s.db.listForMission missionId))).foldlM
        (readmitTask amb (recoverDependent env amb.now)) s = .ok s₁) ↔
      ∀ t ∈ (s.db.listForMission missionId).filter
        (recoverable env (s.db.listForMission missionId)), Arms amb s t :=
    (foldlM_readmit_iff hids (recoverDependent env amb.now) (fun _ => ⟨rfl, rfl⟩) s
      ((List.filter_sublist.map _).nodup hnodup)).1
  have hsecond : ∀ s₁ : Session, (∃ s', ((s₁.db.listForMission missionId).filter
      (redispatchable env (s₁.db.listForMission missionId))).foldlM
        (readmitTask amb (redispatchDependent amb.now)) s₁ = .ok s') ↔
      ∀ t ∈ (s₁.db.listForMission missionId).filter
        (redispatchable env (s₁.db.listForMission missionId)), Arms amb s₁ t := fun s₁ =>
    (foldlM_readmit_iff hids (redispatchDependent amb.now) (fun _ => ⟨rfl, rfl⟩) s₁
      ((List.filter_sublist.map _).nodup (listForMission_nodup s₁.db missionId))).1
  constructor
  · rintro ⟨s', h⟩
    obtain ⟨s₁, hrecover, hredispatch⟩ := bind_eq_ok.1 h
    have hrearmed := (redispatch_arms_iff hids hrecover).1 ((hsecond s₁).1 ⟨s', hredispatch⟩)
    exact fun t ht => ⟨fun hrecoverable => hfirst.1 ⟨s₁, hrecover⟩ t
      (List.mem_filter.2 ⟨ht, hrecoverable⟩), hrearmed t ht⟩
  · intro h
    obtain ⟨s₁, hrecover⟩ := hfirst.2 fun t ht =>
      (h t (List.mem_of_mem_filter ht)).1 (List.of_mem_filter ht)
    obtain ⟨s', hredispatch⟩ := (hsecond s₁).2
      ((redispatch_arms_iff hids hrecover).2 fun t ht => (h t ht).2)
    exact ⟨s', bind_eq_ok.2 ⟨s₁, hrecover, hredispatch⟩⟩

/-- The re-admitting loops go through when every ready dependent that waits can be re-armed. -/
theorem readmitDependents_iff (hids : Function.Injective amb.dispatchId) :
    (∃ s', readmitDependents env amb s missionId = .ok s') ↔ ReadyRearm env amb s missionId := by
  rw [readmitLoops_iff hids]
  refine forall₂_congr fun t _ => ?_
  -- a dependent that waits is blocked with the mark or queued with a deferral
  have hrecoverable : recoverable env (s.db.listForMission missionId) t = true ↔
      (t.status = .blocked ∧ t.blockedByDependencyFailure.isSome = true) ∧
        dependenciesCompleted env (s.db.listForMission missionId) t = true := by
    simp [recoverable]
  have hredispatchable : redispatchable env (s.db.listForMission missionId) t = true ↔
      (t.status = .queued ∧ t.dependencyDeferred = true) ∧
        dependenciesCompleted env (s.db.listForMission missionId) t = true := by
    simp [redispatchable]
  rw [hrecoverable, hredispatchable]
  constructor
  · rintro ⟨hrecover, htwice, hredispatch⟩ (hqueued | hblocked) hready
    · refine ⟨hredispatch ⟨hqueued, hready⟩, fun hblocked => ?_⟩
      rw [hqueued.1] at hblocked
      cases hblocked
    · exact ⟨hrecover ⟨hblocked, hready⟩, fun _ => htwice ⟨hblocked, hready⟩⟩
  · intro h
    exact ⟨fun hblocked => (h (.inr hblocked.1) hblocked.2).arms,
      fun hblocked => (h (.inr hblocked.1) hblocked.2).twice hblocked.1.1,
      fun hqueued => (h (.inl hqueued.1) hqueued.2).arms⟩

end Readmission

end Ajenda.Runtime
