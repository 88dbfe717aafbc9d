import Ajenda.RollupFrame

/-!
# Who will deliver a queued task

A queued task is stranded when its dispatch is not pending and no open dependency of a
deferral will re-arm it. `Kept` is what a transaction may do to a task without closing a
dependency of others, and `Rearmed` is what the two re-admissions of a rollup do.
-/
namespace Ajenda.Runtime
open JsonValue KeyedRows Relation

/-- A change of a task that keeps its place in the graph; a completion may appear in the
mission `m` only. -/
structure Kept (m : Option String) (t t' : ExecutionTask) : Prop where
  id : t'.id = t.id
  tenantId : t'.tenantId = t.tenantId
  missionId : t'.missionId = t.missionId
  node : t'.graphNodeKey = t.graphNodeKey
  dependencies : t'.dependencyKeys = t.dependencyKeys
  completed : t'.status = .completed → t.status = .completed ∨ some t.missionId = m
  cancelled : t.status = .cancelled → t'.status = .cancelled

section Kept
variable {m : Option String}

theorem Kept.refl (t : ExecutionTask) : Kept m t t :=
  ⟨rfl, rfl, rfl, rfl, rfl, .inl, fun h => h⟩

theorem Kept.trans {t₁ t₂ t₃ : ExecutionTask} (h : Kept m t₁ t₂) (g : Kept m t₂ t₃) :
    Kept m t₁ t₃ := by
  refine ⟨g.id.trans h.id, g.tenantId.trans h.tenantId, g.missionId.trans h.missionId,
    g.node.trans h.node, g.dependencies.trans h.dependencies, fun hc => ?_,
    fun hc => g.cancelled (h.cancelled hc)⟩
  rcases g.completed hc with hc | hm
  · exact h.completed hc
  · exact .inr (h.missionId ▸ hm)

/-- A change of the status and of metadata outside the graph. -/
theorem Kept.of_fields {t t' : ExecutionTask} (hid : t'.id = t.id)
    (htenant : t'.tenantId = t.tenantId) (hmission : t'.missionId = t.missionId)
    (hnode : Fields.get t'.metadata "graph_node_key" = Fields.get t.metadata "graph_node_key")
    (hdependencies : Fields.get t'.metadata "dependency_keys" =
      Fields.get t.metadata "dependency_keys")
    (hcompleted : t'.status = .completed → t.status = .completed ∨ some t.missionId = m)
    (hcancelled : t.status = .cancelled → t'.status = .cancelled) : Kept m t t' := by
  refine ⟨hid, htenant, hmission, ?_, ?_, hcompleted, hcancelled⟩
  · rw [ExecutionTask.graphNodeKey, ExecutionTask.graphNodeKey, hnode]
  · rw [ExecutionTask.dependencyKeys, ExecutionTask.dependencyKeys, hdependencies]

theorem Kept.withStatus {t : ExecutionTask} {status : ExecutionTaskState}
    (hcompleted : status = .completed → some t.missionId = m)
    (hcancelled : t.status = .cancelled → status = .cancelled) :
    Kept m t (t.withStatus status) :=
  ⟨rfl, rfl, rfl, rfl, rfl, fun h => .inr (hcompleted h), hcancelled⟩

def TasksKept (m : Option String) (db db' : Db) : Prop := Rows.Related (Kept m) db.tasks db'.tasks

theorem TasksKept.of_eq {db db' : Db} (h : db'.tasks = db.tasks) : TasksKept m db db' := by
  rw [TasksKept, h]
  exact Rows.related_refl Kept.refl _

theorem TasksKept.trans {db₁ db₂ db₃ : Db} (h : TasksKept m db₁ db₂) (g : TasksKept m db₂ db₃) :
    TasksKept m db₁ db₃ :=
  Rows.Related.trans (fun _ _ _ hab hbc => hab.trans hbc) h g

theorem TasksKept.saveTask {s : Session} {t t' : ExecutionTask}
    (hget : s.db.tasks.get t.id = some t) (h : Kept m t t') :
    TasksKept m s.db (s.saveTask t').db :=
  Rows.related_set Kept.refl hget h.id h

theorem TasksKept.get {db db' : Db} (h : TasksKept m db db') {id : String} {t : ExecutionTask}
    (hget : db.tasks.get id = some t) : ∃ t', db'.tasks.get id = some t' ∧ Kept m t t' := by
  have hrel := Rows.Related.get (fun a b hab => hab.id.symm) h id
  rw [hget] at hrel
  cases hget' : db'.tasks.get id with
  | none => rw [hget'] at hrel; cases hrel
  | some t' =>
    rw [hget'] at hrel
    cases hrel with
    | some hkept => exact ⟨t', rfl, hkept⟩

theorem TasksKept.get_rev {db db' : Db} (h : TasksKept m db db') {id : String}
    {t' : ExecutionTask} (hget : db'.tasks.get id = some t') :
    ∃ t, db.tasks.get id = some t ∧ Kept m t t' := by
  cases hget₀ : db.tasks.get id with
  | none =>
    have hrel := Rows.Related.get (fun a b hab => hab.id.symm) h id
    rw [hget₀, hget] at hrel
    cases hrel
  | some t =>
    obtain ⟨u, hu, hkept⟩ := h.get hget₀
    obtain rfl := Option.some.inj (hget.symm.trans hu)
    exact ⟨t, rfl, hkept⟩

end Kept

section Moves
variable {env : Env} {amb : Ambient} {s s' : Session}

theorem RollupMove.kept {t t' : ExecutionTask} (h : RollupMove env t t') : Kept none t t' := by
  cases h with
  | recover now _ hstatus =>
    refine .of_fields rfl rfl rfl ?_ ?_ (fun hc => by cases hc)
      (fun hc => by rw [hstatus] at hc; cases hc)
    all_goals simp [recoverDependent, Fields.get_set, Fields.get_pop]
  | redispatch now _ hstatus =>
    refine .of_fields rfl rfl rfl ?_ ?_ .inl (fun hc => hc)
    all_goals simp [redispatchDependent, Fields.get_set, Fields.get_pop]
  | block failedKeys _ hstatus =>
    refine .of_fields rfl rfl rfl ?_ ?_ (fun hc => by cases hc) (fun hc => by simp [hc] at hstatus)
    all_goals simp [blockDependent, Fields.get_set]

/-- A rollup does not move a completed or failed task. -/
theorem settled_of_moves {t t' : ExecutionTask} (h : ReflTransGen (RollupMove env) t t')
    (hstatus : t.status = .completed ∨ t.status = .failed) : t' = t := by
  rcases h.cases_head with rfl | ⟨u, hmove, -⟩
  · rfl
  · cases hmove with
    | recover _ _ hs | redispatch _ _ hs => simp [hs] at hstatus
    | block _ _ hs => rcases hs with hs | hs | hs <;> simp [hs] at hstatus

end Moves

section Waiting
variable (env : Env)

/-- The key names no task, or a task that is not completed. -/
def nodeOpen (siblings : List ExecutionTask) (key : String) : Bool :=
  match nodeTask siblings key with
  | some dependency => dependency.status ≠ .completed
  | none => true

/-- A deferred task that has an open dependency. -/
def Waiting (db : Db) (task : ExecutionTask) : Prop :=
  task.dependencyDeferred = true ∧ ∃ keys key, task.dependencyKeys = some keys ∧ key ∈ keys ∧
    nodeOpen (db.listForMission task.missionId) (pyStr env key) = true

/-- The dispatcher will still publish the dispatch of the task. -/
def Armed (db : Db) (taskId : String) : Prop :=
  ∃ id dispatch, db.dispatches.get id = some dispatch ∧ dispatch.taskId = taskId ∧
    dispatch.status = .pending

/-- A queued task that neither its dispatch nor a deferral will deliver. -/
def Stranded (db : Db) (taskId : String) : Prop :=
  ∃ task, db.tasks.get taskId = some task ∧ task.status = .queued ∧ ¬ Armed db taskId ∧
    ¬ Waiting env db task

/-- A task that needs no delivery: it is not queued, or it waits for a dependency. -/
def Idle (db : Db) (taskId : String) : Prop :=
  ∀ task, db.tasks.get taskId = some task → task.status = .queued → Waiting env db task

def waiting (db : Db) (task : ExecutionTask) : Bool :=
  task.dependencyDeferred && (task.dependencyKeys.getD []).any fun key =>
    nodeOpen (db.listForMission task.missionId) (pyStr env key)

def armed (db : Db) (taskId : String) : Bool :=
  db.dispatches.list.any fun d => d.taskId = taskId && d.status = .pending

def stranded (db : Db) (task : ExecutionTask) : Bool :=
  task.status = .queued && !armed db task.id && !waiting env db task

variable {env} {m : Option String}

theorem Idle.not_stranded {db : Db} {taskId : String} (h : Idle env db taskId) :
    ¬ Stranded env db taskId :=
  fun ⟨t, ht, hqueued, _, hopen⟩ => hopen (h t ht hqueued)

theorem Idle.of_status {db : Db} {taskId : String} {task : ExecutionTask}
    (hget : db.tasks.get taskId = some task) (hstatus : task.status ≠ .queued) :
    Idle env db taskId := by
  intro t ht hqueued
  obtain rfl := Option.some.inj (hget.symm.trans ht)
  exact absurd hqueued hstatus

theorem Idle.of_tasks {db db' : Db} {taskId : String} (h : Idle env db taskId)
    (htasks : db'.tasks = db.tasks) : Idle env db' taskId := by
  unfold Idle Waiting Db.listForMission at *
  rwa [htasks]

theorem waiting_iff {db : Db} {task : ExecutionTask} :
    waiting env db task = true ↔ Waiting env db task := by
  rw [waiting, Bool.and_eq_true, List.any_eq_true, Waiting]
  refine and_congr_right fun _ => ⟨?_, ?_⟩
  · rintro ⟨key, hkey, hopen⟩
    cases hkeys : task.dependencyKeys with
    | none => simp [hkeys] at hkey
    | some keys => exact ⟨keys, key, rfl, by simpa [hkeys] using hkey, hopen⟩
  · rintro ⟨keys, key, hkeys, hkey, hopen⟩
    exact ⟨key, by simpa [hkeys] using hkey, hopen⟩

theorem armed_iff {db : Db} {taskId : String} : armed db taskId = true ↔ Armed db taskId := by
  simp only [armed, List.any_eq_true, Bool.and_eq_true, decide_eq_true_eq, Armed]
  constructor
  · rintro ⟨d, hd, htask, hpending⟩
    exact ⟨d.id, d, Rows.get_of_mem hd, htask, hpending⟩
  · rintro ⟨id, d, hd, htask, hpending⟩
    exact ⟨d, Rows.mem_of_get hd, htask, hpending⟩

instance {db : Db} {task : ExecutionTask} : Decidable (Waiting env db task) :=
  decidable_of_iff _ waiting_iff

instance {db : Db} {taskId : String} : Decidable (Armed db taskId) :=
  decidable_of_iff _ armed_iff

theorem stranded_iff {db : Db} {id : String} :
    Stranded env db id ↔ ∃ task, db.tasks.get id = some task ∧ stranded env db task = true := by
  refine exists_congr fun task => and_congr_right fun hget => ?_
  obtain rfl := Rows.key_of_get hget
  simp only [stranded, Bool.and_eq_true, decide_eq_true_eq, Bool.not_eq_true', and_assoc,
    ← armed_iff, ← waiting_iff, Bool.not_eq_true]
  rfl

theorem nodeOpen_of_kept {siblings siblings' : List ExecutionTask} {key : String}
    (h : List.Forall₂ (fun t t' => Kept m t t' ∧ some t.missionId ≠ m) siblings siblings')
    (hopen : nodeOpen siblings key = true) : nodeOpen siblings' key = true := by
  have hrel := Rows.forall₂_find? (p := fun t => t.graphNodeKey = some key)
    (fun t t' ht => by rw [ht.1.node]) (List.forall₂_reverse_iff.mpr h)
  change Option.Rel _ (nodeTask siblings key) (nodeTask siblings' key) at hrel
  unfold nodeOpen at *
  cases hnode' : nodeTask siblings' key with
  | none => rfl
  | some t' =>
    cases hnode : nodeTask siblings key with
    | none =>
      rw [hnode, hnode'] at hrel
      cases hrel
    | some t =>
      rw [hnode, hnode'] at hrel
      rw [hnode] at hopen
      cases hrel with
      | some hkept =>
        simp only [ne_eq, decide_not, Bool.not_eq_true', decide_eq_false_iff_not] at hopen ⊢
        exact fun hc => (hkept.1.completed hc).elim hopen hkept.2

theorem listForMission_kept {db db' : Db} {missionId : String} (h : TasksKept m db db')
    (hm : some missionId ≠ m) :
    List.Forall₂ (fun t t' => Kept m t t' ∧ some t.missionId ≠ m) (db.listForMission missionId)
      (db'.listForMission missionId) := by
  have hfiltered := Rows.Related.filter (p := fun t => t.missionId = missionId)
    (fun t t' ht => by rw [ht.missionId]) h
  have hmission : ∀ t ∈ db.listForMission missionId, some t.missionId ≠ m := fun t ht => by
    have := List.of_mem_filter ht
    simp only [decide_eq_true_eq] at this
    rwa [this]
  revert hmission hfiltered
  unfold Db.listForMission
  generalize List.filter (fun t => decide (t.missionId = missionId)) db.tasks.list = l
  generalize List.filter (fun t => decide (t.missionId = missionId)) db'.tasks.list = l'
  intro hfiltered hmission
  induction hfiltered with
  | nil => exact .nil
  | cons hkept _ ih =>
    exact .cons ⟨hkept, hmission _ (by simp)⟩ (ih fun t ht => hmission t (by simp [ht]))

/-- A deferral goes on waiting while no dependency completes. -/
theorem Waiting.kept {db db' : Db} {task task' : ExecutionTask} (h : Waiting env db task)
    (hkept : TasksKept m db db') (hm : some task.missionId ≠ m)
    (hmission : task'.missionId = task.missionId)
    (hdependencies : task'.dependencyKeys = task.dependencyKeys)
    (hdeferred : task'.dependencyDeferred = task.dependencyDeferred) : Waiting env db' task' := by
  obtain ⟨hd, keys, key, hkeys, hkey, hopen⟩ := h
  refine ⟨hdeferred ▸ hd, keys, key, hdependencies ▸ hkeys, hkey, ?_⟩
  rw [hmission]
  exact nodeOpen_of_kept (listForMission_kept hkept hm) hopen

theorem dependenciesCompleted_iff {siblings : List ExecutionTask} {task : ExecutionTask} :
    dependenciesCompleted env siblings task = true ↔ ∃ keys, task.dependencyKeys = some keys ∧
      keys ≠ [] ∧ ∀ key ∈ keys, nodeOpen siblings (pyStr env key) = false := by
  unfold dependenciesCompleted
  split
  next key keys hkeys =>
    rw [List.all_eq_true]
    constructor
    · intro h
      refine ⟨key :: keys, hkeys, by simp, fun k hk => ?_⟩
      have hk := h k hk
      unfold nodeOpen
      split at hk <;> simp_all
    · rintro ⟨keys', hkeys', -, h⟩ k hk
      obtain rfl := Option.some.inj (hkeys.symm.trans hkeys')
      have hk := h k hk
      unfold nodeOpen at hk
      split at hk <;> simp_all
  next hnone =>
    constructor
    · intro h
      cases h
    · rintro ⟨keys, hkeys, hne, -⟩
      obtain ⟨key, keys, rfl⟩ := List.exists_cons_of_ne_nil hne
      exact absurd hkeys (hnone key keys)

end Waiting
end Ajenda.Runtime
