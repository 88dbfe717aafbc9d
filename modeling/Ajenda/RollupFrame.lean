import Ajenda.RuntimeTransactions
import Mathlib.Logic.Relation

/-!
# What a rollup can change

A rollup saves missions and dispatches, and each task it saves has made one of three moves.
Everything later modules need about the rows after a rollup is read off this list.
-/
namespace Ajenda.Runtime
open JsonValue KeyedRows Relation

/-- The moves a rollup makes with a task. -/
inductive RollupMove (env : Env) : ExecutionTask → ExecutionTask → Prop
  | recover (now : String) (task : ExecutionTask) (hstatus : task.status = .blocked) :
      RollupMove env task (recoverDependent env now task)
  | redispatch (now : String) (task : ExecutionTask) (hstatus : task.status = .queued) :
      RollupMove env task (redispatchDependent now task)
  | block (failedKeys : List String) (task : ExecutionTask)
      (hstatus : task.status = .planned ∨ task.status = .queued ∨ task.status = .claimed) :
      RollupMove env task (blockDependent env failedKeys task)

/-- The session `s'` comes from `s` by rollup moves of tasks and by writes to missions,
dispatches and intents. -/
structure Rolled (env : Env) (s s' : Session) : Prop where
  leases : s'.db.leases = s.db.leases
  evidence : s'.db.evidence = s.db.evidence
  lineage : s'.db.lineage = s.db.lineage
  came : ∀ id t', s'.db.tasks.get id = some t' →
    ∃ t, s.db.tasks.get id = some t ∧ ReflTransGen (RollupMove env) t t'
  kept : ∀ id t, s.db.tasks.get id = some t →
    ∃ t', s'.db.tasks.get id = some t' ∧ ReflTransGen (RollupMove env) t t'

section Rows
variable {env : Env}

/-- A session with the same tasks, leases, evidence and lineage. -/
theorem Rolled.of_eq {s s' : Session} (htasks : s'.db.tasks = s.db.tasks)
    (hleases : s'.db.leases = s.db.leases) (hevidence : s'.db.evidence = s.db.evidence)
    (hlineage : s'.db.lineage = s.db.lineage) : Rolled env s s' :=
  ⟨hleases, hevidence, hlineage, fun _ t ht => ⟨t, htasks ▸ ht, .refl⟩,
    fun _ t ht => ⟨t, htasks ▸ ht, .refl⟩⟩

theorem Rolled.refl (s : Session) : Rolled env s s := .of_eq rfl rfl rfl rfl

theorem Rolled.trans {s₁ s₂ s₃ : Session} (h : Rolled env s₁ s₂) (g : Rolled env s₂ s₃) :
    Rolled env s₁ s₃ := by
  refine ⟨g.leases.trans h.leases, g.evidence.trans h.evidence, g.lineage.trans h.lineage,
    fun id t' ht' => ?_, fun id t ht => ?_⟩
  · obtain ⟨u, hu, hut⟩ := g.came id t' ht'
    obtain ⟨t, ht, htu⟩ := h.came id u hu
    exact ⟨t, ht, htu.trans hut⟩
  · obtain ⟨u, hu, htu⟩ := h.kept id t ht
    obtain ⟨t', ht', hut⟩ := g.kept id u hu
    exact ⟨t', ht', htu.trans hut⟩

theorem Rolled.saveMission (s : Session) (mission : Mission) :
    Rolled env s (s.saveMission mission) := .of_eq rfl rfl rfl rfl

theorem Rolled.saveTask {s : Session} {task task' : ExecutionTask}
    (hget : s.db.tasks.get task.id = some task) (hid : task'.id = task.id)
    (hmove : RollupMove env task task') : Rolled env s (s.saveTask task') := by
  have hset := get_saveTask hget hid
  refine ⟨rfl, rfl, rfl, fun id t' ht' => ?_, fun id t ht => ?_⟩
  · rw [hset] at ht'
    split_ifs at ht' with h
    · exact ⟨task, h ▸ hget, .single (Option.some.inj ht' ▸ hmove)⟩
    · exact ⟨t', ht', .refl⟩
  · rw [hset]
    split_ifs with h
    · obtain rfl : task = t := Option.some.inj (hget.symm.trans (h ▸ ht))
      exact ⟨task', rfl, .single hmove⟩
    · exact ⟨t, ht, .refl⟩

end Rows

section Dispatches
variable {amb : Ambient} {s s' : Session} {task : ExecutionTask}

theorem scheduleAfterCommit_db (s : Session) (dispatch : RuntimeQueueDispatch) :
    (scheduleAfterCommit s dispatch).db = s.db := by
  unfold scheduleAfterCommit
  split_ifs <;> rfl

theorem addDispatch_db {dispatch : RuntimeQueueDispatch} (h : addDispatch s dispatch = .ok s') :
    s'.db = { s.db with dispatches := s'.db.dispatches } := by
  unfold addDispatch at h
  split_ifs at h
  split at h
  · cases h
  · obtain rfl := Except.ok.inj h
    rfl

theorem releaseReviewHold_db (h : releaseReviewHold s task = .ok s') :
    s'.db = { s.db with dispatches := s'.db.dispatches } := by
  unfold releaseReviewHold at h
  split at h
  · cases h
  · split_ifs at h
    obtain rfl := Except.ok.inj h
    simp only [scheduleAfterCommit_db]
    rfl

theorem admit_db {held created : Bool} (h : admitTask amb s task held = .ok (s', created)) :
    s'.db = { s.db with dispatches := s'.db.dispatches } := by
  unfold admitTask at h
  split at h
  · split_ifs at h
    · obtain ⟨s₁, hrelease, hs⟩ := bind_eq_ok.mp h
      obtain ⟨rfl, -⟩ := Prod.mk.inj (Except.ok.inj hs)
      exact releaseReviewHold_db hrelease
    · obtain ⟨rfl, -⟩ := Prod.mk.inj (Except.ok.inj h)
      rfl
  · obtain ⟨s₁, hadd, hs⟩ := bind_eq_ok.mp h
    obtain ⟨rfl, -⟩ := Prod.mk.inj (Except.ok.inj hs)
    split_ifs
    · exact addDispatch_db hadd
    · simp only [scheduleAfterCommit_db]
      exact addDispatch_db hadd

theorem retry_db (h : retry amb s task = .ok s') :
    s'.db = { s.db with dispatches := s'.db.dispatches } := by
  unfold retry at h
  split at h
  · obtain ⟨⟨s₁, created⟩, hadmission, hs⟩ := bind_eq_ok.mp h
    obtain rfl := Except.ok.inj hs
    exact admit_db hadmission
  · obtain ⟨generation, -, hs⟩ := bind_eq_ok.mp h
    obtain rfl := Except.ok.inj hs
    simp only [scheduleAfterCommit_db]
    rfl

theorem Rolled.of_db {env : Env} (h : s'.db = { s.db with dispatches := s'.db.dispatches }) :
    Rolled env s s' := by
  refine .of_eq ?_ ?_ ?_ ?_ <;> rw [h]

end Dispatches

section Rollup
variable {env : Env} {amb : Ambient}

theorem listForMission_nodup (db : Db) (missionId : String) :
    ((db.listForMission missionId).map ExecutionTask.id).Nodup :=
  (List.filter_sublist.map _).nodup db.tasks.nodup

theorem get_of_listForMission {db : Db} {missionId : String} {task : ExecutionTask}
    (h : task ∈ db.listForMission missionId) : db.tasks.get task.id = some task :=
  Rows.get_of_mem (List.mem_of_mem_filter h)

/-- Saving distinct stored tasks one after the other: what relates a session to the next one
relates the first to the last, and what a turn achieves for its task stays. -/
theorem foldlM_tasks {R : Session → Session → Prop} {Q : ExecutionTask → Session → Prop}
    (hrefl : ∀ s, R s s) (htrans : ∀ s₁ s₂ s₃, R s₁ s₂ → R s₂ s₃ → R s₁ s₃)
    (hstays : ∀ t s s', R s s' → Q t s → Q t s') {l : List ExecutionTask}
    {f : Session → ExecutionTask → Except Error Session}
    (hsave : ∀ s s' t, t ∈ l → s.db.tasks.get t.id = some t → f s t = .ok s' →
      R s s' ∧ Q t s' ∧ ∀ k, k ≠ t.id → s'.db.tasks.get k = s.db.tasks.get k)
    (hnodup : (l.map ExecutionTask.id).Nodup) {s s' : Session}
    (hget : ∀ t ∈ l, s.db.tasks.get t.id = some t) (h : l.foldlM f s = .ok s') :
    R s s' ∧ ∀ t ∈ l, Q t s' := by
  induction l generalizing s with
  | nil =>
    obtain rfl := Except.ok.inj h
    exact ⟨hrefl s, by simp⟩
  | cons t l ih =>
    obtain ⟨s₁, hs₁, hrest⟩ := bind_eq_ok.mp h
    obtain ⟨hR, hQ, hothers⟩ := hsave s s₁ t (by simp) (hget t (by simp)) hs₁
    rw [List.map_cons, List.nodup_cons] at hnodup
    have hget₁ : ∀ u ∈ l, s₁.db.tasks.get u.id = some u := fun u hu => by
      rw [hothers u.id fun heq => hnodup.1 (heq ▸ List.mem_map_of_mem hu)]
      exact hget u (by simp [hu])
    obtain ⟨hR', hQ'⟩ := ih (fun s s' u hu => hsave s s' u (by simp [hu])) hnodup.2 hget₁ hrest
    refine ⟨htrans _ _ _ hR hR', fun u hu => ?_⟩
    rcases List.mem_cons.mp hu with rfl | hu
    · exact hstays _ _ _ hR' hQ
    · exact hQ' u hu

theorem recoverable_status {siblings : List ExecutionTask} {t : ExecutionTask}
    (h : recoverable env siblings t = true) : t.status = .blocked := by
  simp only [recoverable, Bool.and_eq_true, decide_eq_true_eq] at h
  exact h.1.1

theorem redispatchable_status {siblings : List ExecutionTask} {t : ExecutionTask}
    (h : redispatchable env siblings t = true) : t.status = .queued := by
  simp only [redispatchable, Bool.and_eq_true, decide_eq_true_eq] at h
  exact h.1.1

theorem blockable_status {failedKeys : List String} {t : ExecutionTask}
    (h : blockable env failedKeys t = true) :
    t.status = .planned ∨ t.status = .queued ∨ t.status = .claimed := by
  simp only [blockable, Bool.and_eq_true, Bool.or_eq_true, decide_eq_true_eq] at h
  tauto

theorem cancel_db (s : Session) (task : ExecutionTask) :
    (cancel s task).db = { s.db with dispatches := (cancel s task).db.dispatches } := by
  unfold cancel
  split
  · rfl
  · split_ifs <;> rfl

end Rollup

/-- Whatever a rollup does is a sequence of three steps: it writes a mission, it re-admits a
blocked or deferred task with a new delivery of its dispatch, or it blocks a task. -/
inductive RollupStep (env : Env) (amb : Ambient) : Session → Session → Prop
  | mission (s : Session) (mission : Mission) : RollupStep env amb s (s.saveMission mission)
  | readmission {s s' : Session} {t t' : ExecutionTask} (hget : s.db.tasks.get t.id = some t)
      (hid : t'.id = t.id) (hmove : RollupMove env t t')
      (hretry : retry amb (s.saveTask t') t' = .ok s') : RollupStep env amb s s'
  | block {s : Session} {t : ExecutionTask} (failedKeys : List String)
      (hget : s.db.tasks.get t.id = some t)
      (hstatus : t.status = .planned ∨ t.status = .queued ∨ t.status = .claimed) :
      RollupStep env amb s (s.saveTask (blockDependent env failedKeys t))

section Steps
variable {env : Env} {amb : Ambient} {s s' : Session}

theorem readmit_steps {f : ExecutionTask → ExecutionTask} {p : ExecutionTask → Bool}
    {missionId : String} (hid : ∀ t, (f t).id = t.id)
    (hmove : ∀ t, p t = true → RollupMove env t (f t))
    (h : ((s.db.listForMission missionId).filter p).foldlM (readmitTask amb f) s = .ok s') :
    ReflTransGen (RollupStep env amb) s s' := by
  refine (foldlM_tasks (R := ReflTransGen (RollupStep env amb)) (Q := fun _ _ => True)
    (fun _ => .refl) (fun _ _ _ => .trans) (fun _ _ _ _ h => h) (fun s s' t ht hget hs => ?_)
    ((List.filter_sublist.map _).nodup (listForMission_nodup s.db missionId))
    (fun t ht => get_of_listForMission (List.mem_of_mem_filter ht)) h).1
  refine ⟨.single (.readmission hget (hid t) (hmove t (List.of_mem_filter ht)) hs), trivial,
    fun k hk => ?_⟩
  rw [retry_db hs]
  exact (get_saveTask hget (hid t) k).trans (if_neg hk)

theorem readmitDependents_steps {missionId : String}
    (h : readmitDependents env amb s missionId = .ok s') :
    ReflTransGen (RollupStep env amb) s s' := by
  obtain ⟨s₁, hrecover, hredispatch⟩ := bind_eq_ok.mp h
  have hfirst : ReflTransGen (RollupStep env amb) s s₁ :=
    readmit_steps (f := recoverDependent env amb.now)
      (p := recoverable env (s.db.listForMission missionId)) (fun _ => rfl)
      (fun t ht => .recover amb.now t (recoverable_status ht)) hrecover
  have hsecond : ReflTransGen (RollupStep env amb) s₁ s' :=
    readmit_steps (f := redispatchDependent amb.now)
      (p := redispatchable env (s₁.db.listForMission missionId)) (fun _ => rfl)
      (fun t ht => .redispatch amb.now t (redispatchable_status ht)) hredispatch
  exact hfirst.trans hsecond

theorem blockDependents_steps (s : Session) (missionId : String) (failedKeys : List String) :
    ReflTransGen (RollupStep env amb) s
      (((s.db.listForMission missionId).filter (blockable env failedKeys)).foldl
        (fun s t => s.saveTask (blockDependent env failedKeys t)) s) := by
  refine (foldlM_tasks (R := ReflTransGen (RollupStep env amb)) (Q := fun _ _ => True)
    (f := fun s t => .ok (s.saveTask (blockDependent env failedKeys t))) (fun _ => .refl)
    (fun _ _ _ => .trans) (fun _ _ _ _ h => h) (fun s s' t ht hget hs => ?_)
    ((List.filter_sublist.map _).nodup (listForMission_nodup s.db missionId))
    (fun t ht => get_of_listForMission (List.mem_of_mem_filter ht)) List.foldlM_pure).1
  obtain rfl := Except.ok.inj hs
  exact ⟨.single (.block failedKeys hget (blockable_status (List.of_mem_filter ht))), trivial,
    fun k hk => (get_saveTask (u := blockDependent env failedKeys t) hget rfl k).trans
      (if_neg hk)⟩

theorem getMissionForTenant_steps {now missionId tenantId : String} {mission : Mission}
    (h : getMissionForTenant s now missionId tenantId = some (s', mission)) :
    ReflTransGen (RollupStep env amb) s s' := by
  unfold getMissionForTenant at h
  split at h
  · cases h
  · split_ifs at h
    obtain ⟨rfl, -⟩ := Prod.mk.inj (Option.some.inj h)
    exact .single (.mission s _)

theorem markRunning_steps (s : Session) (mission : Mission) :
    ReflTransGen (RollupStep env amb) s (markRunning s mission) := by
  unfold markRunning
  split_ifs
  · split
    · exact .single (.mission s _)
    · exact .refl
  · exact .refl

theorem finishMission_steps {now : String} {mission : Mission} {siblings : List ExecutionTask}
    (h : finishMission env now s mission siblings = .ok s') :
    ReflTransGen (RollupStep env amb) s s' := by
  obtain ⟨acceptance, -, hs⟩ := bind_eq_ok.mp h
  dsimp only at hs
  split at hs
  all_goals
    obtain rfl := Except.ok.inj hs
    exact .single (.mission s _)

theorem maybeRollupMissionStatus_steps {fuel : ℕ} {task : ExecutionTask}
    (h : maybeRollupMissionStatus env amb fuel s task = .ok s') :
    ReflTransGen (RollupStep env amb) s s' := by
  induction fuel generalizing s with
  | zero => cases h
  | succ fuel ih =>
    unfold maybeRollupMissionStatus at h
    split at h
    · obtain rfl := Except.ok.inj h
      exact .refl
    next s₁ mission hload =>
      have hload : ReflTransGen (RollupStep env amb) s s₁ := getMissionForTenant_steps hload
      split_ifs at h
      · obtain rfl := Except.ok.inj h
        exact hload
      · obtain rfl := Except.ok.inj h
        exact hload
      · obtain ⟨s₂, hreadmission, hrest⟩ := bind_eq_ok.mp h
        have hreadmission := hload.trans (readmitDependents_steps hreadmission)
        dsimp only at hrest
        split_ifs at hrest
        · obtain rfl := Except.ok.inj hrest
          exact hreadmission.trans (markRunning_steps s₂ mission)
        · exact hreadmission.trans (finishMission_steps hrest)
        · exact (hreadmission.trans (blockDependents_steps s₂ _ _)).trans (ih hrest)

theorem refreshDeliverableReadModel_steps (s : Session) (task : ExecutionTask) :
    ReflTransGen (RollupStep env amb) s (refreshDeliverableReadModel env amb s task) := by
  unfold refreshDeliverableReadModel
  split
  · exact .refl
  next s₁ mission hload =>
    have hload : ReflTransGen (RollupStep env amb) s s₁ := getMissionForTenant_steps hload
    split
    · exact hload
    · exact hload.tail (.mission s₁ _)

theorem rolled_of_steps (h : ReflTransGen (RollupStep env amb) s s') : Rolled env s s' := by
  induction h with
  | refl => exact .refl s
  | tail _ hstep ih =>
    refine ih.trans ?_
    cases hstep with
    | mission mission => exact .saveMission _ mission
    | readmission hget hid hmove hretry =>
      exact (Rolled.saveTask hget hid hmove).trans (.of_db (retry_db hretry))
    | block failedKeys hget hstatus =>
      exact .saveTask hget rfl (.block failedKeys _ hstatus)

theorem maybeRollupMissionStatus_rolled {fuel : ℕ} {task : ExecutionTask}
    (h : maybeRollupMissionStatus env amb fuel s task = .ok s') : Rolled env s s' :=
  rolled_of_steps (maybeRollupMissionStatus_steps h)

theorem refreshDeliverableReadModel_rolled (s : Session) (task : ExecutionTask) :
    Rolled env s (refreshDeliverableReadModel env amb s task) :=
  rolled_of_steps (refreshDeliverableReadModel_steps s task)

end Steps

end Ajenda.Runtime
