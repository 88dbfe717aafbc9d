import Ajenda.DispatchLedger

/-!
# What a transaction strands

`Advance` is what a transaction does to tasks and dispatches: the tasks keep their place, the
ledger of dispatches is kept, and the queued tasks it strands are named. A rollup strands no
task, and a rollup that runs leaves no deferred task of its mission stranded.
-/
namespace Ajenda.Runtime
open JsonValue KeyedRows FiniteTable Relation

/-- A transaction that completes tasks of the mission `m` only and strands tasks in `P` only. -/
structure Advance (env : Env) (m : Option String) (P : String → Prop) (s s' : Session) : Prop where
  tasks : TasksKept m s.db s'.db
  ledger : ∀ tenantId keys, Ledger tenantId s.db keys → Ledger tenantId s'.db keys
  stranded : ∀ id, Stranded env s'.db id → P id ∨ Stranded env s.db id

section Advance
variable {env : Env} {m : Option String} {P : String → Prop} {s s' : Session}

theorem Advance.trans {s₁ s₂ s₃ : Session} (h : Advance env m P s₁ s₂)
    (g : Advance env m P s₂ s₃) : Advance env m P s₁ s₃ := by
  refine ⟨h.tasks.trans g.tasks, fun _ keys hl => g.ledger _ keys (h.ledger _ keys hl),
    fun id hs => ?_⟩
  rcases g.stranded id hs with hP | hs
  · exact .inl hP
  · exact h.stranded id hs

/-- A task that keeps its row is stranded only if it was before. -/
theorem Stranded.back {db db' : Db} {id : String} (h : Stranded env db' id)
    (htasks : TasksKept m db db') (hrow : db'.tasks.get id = db.tasks.get id)
    (harmed : Armed db id → Armed db' id)
    (hm : ∀ t, db.tasks.get id = some t → some t.missionId ≠ m) : Stranded env db id := by
  obtain ⟨t, hget, hqueued, hdisarmed, hopen⟩ := h
  rw [hrow] at hget
  exact ⟨t, hget, hqueued, fun ha => hdisarmed (harmed ha),
    fun hw => hopen (hw.kept htasks (hm t hget) rfl rfl rfl)⟩

theorem Dispatched.advance (h : Dispatched s s') : Advance env none P s s' := by
  refine ⟨.of_eq h.tasks, h.ledger, fun id hs => .inr ?_⟩
  exact hs.back (.of_eq (m := none) h.tasks) (by rw [h.tasks]) (h.armed id) (by simp)

theorem Advance.of_eq (htasks : s'.db.tasks = s.db.tasks)
    (hdispatches : s'.db.dispatches = s.db.dispatches) : Advance env none P s s' := by
  refine Dispatched.advance ⟨htasks, fun id h => ?_, fun _ keys hl => ?_⟩
  · rwa [Armed, hdispatches]
  · exact hl.of_eq hdispatches (htasks ▸ hl.tasks) fun id t ht hc => ⟨t, htasks ▸ ht, hc⟩

theorem Advance.refl (s : Session) : Advance env none P s s := .of_eq rfl rfl

theorem Advance.saveLease (lease : WorkerLease) : Advance env none P s (s.saveLease lease) :=
  .of_eq rfl rfl

theorem Ledger.kept {db db' : Db} {tenantId : String} {keys : Table String Unit}
    (h : Ledger tenantId db keys) (hdispatches : db'.dispatches = db.dispatches)
    (hkept : TasksKept m db db') : Ledger tenantId db' keys := by
  refine h.of_eq hdispatches (fun id t' ht' => ?_) fun id t ht hc => ?_
  · obtain ⟨t, ht, hkept⟩ := hkept.get_rev ht'
    exact hkept.tenantId.trans (h.tasks id t ht)
  obtain ⟨t', ht', hkept⟩ := hkept.get ht
  exact ⟨t', ht', hkept.cancelled hc⟩

/-- Saving a task that does not become queued, or that `P` names. -/
theorem Advance.saveTask {t t' : ExecutionTask} (hget : s.db.tasks.get t.id = some t)
    (hkept : Kept m t t') (hqueued : t'.status = .queued → P t.id)
    (hm : ∀ id u, s.db.tasks.get id = some u → some u.missionId = m → P id) :
    Advance env m P s (s.saveTask t') := by
  have htasks : TasksKept m s.db (s.saveTask t').db := .saveTask hget hkept
  have hrow := get_saveTask hget hkept.id
  refine ⟨htasks, fun _ keys hl => hl.kept rfl htasks, fun id hs => ?_⟩
  by_cases hid : id = t.id
  · obtain ⟨u, hu, hq, -⟩ := hs
    rw [hrow, if_pos hid] at hu
    obtain rfl := Option.some.inj hu
    exact .inl (hid ▸ hqueued hq)
  · by_cases hmission : ∃ u, s.db.tasks.get id = some u ∧ some u.missionId = m
    · obtain ⟨u, hu, hum⟩ := hmission
      exact .inl (hm id u hu hum)
    · exact .inr (hs.back htasks ((hrow id).trans (if_neg hid)) (fun h => h)
        fun u hu hum => hmission ⟨u, hu, hum⟩)

/-- Saving a task without queueing or completing it. -/
theorem Advance.saveIdle {t t' : ExecutionTask} (hget : s.db.tasks.get t.id = some t)
    (hkept : Kept none t t') (hqueued : t'.status ≠ .queued) :
    Advance env none P s (s.saveTask t') :=
  .saveTask hget hkept (fun hq => absurd hq hqueued) (by simp)

/-- The one task that a transaction may strand is not stranded. -/
theorem Advance.settle {id : String} (h : Advance env m (· = id) s s')
    (hid : ¬ Stranded env s'.db id) : Advance env m P s s' := by
  refine ⟨h.tasks, h.ledger, fun k hs => .inr ?_⟩
  rcases h.stranded k hs with rfl | hs'
  · exact absurd hs hid
  · exact hs'

/-- What arms the one task that a transaction may strand. -/
theorem Advance.arm {s₁ : Session} {id : String} (h : Advance env none (· = id) s s₁)
    (hd : Dispatched s₁ s') (harmed : Armed s'.db id) : Advance env none P s s' := by
  refine (h.trans hd.advance).settle ?_
  rintro ⟨t, -, -, hdisarmed, -⟩
  exact hdisarmed harmed

/-- The dispatch of a cancelled task is cancelled. -/
theorem cancel_advance {task t : ExecutionTask} (hget : s.db.tasks.get task.id = some t)
    (hcancelled : t.status = .cancelled) : Advance env none P s (cancel s task) := by
  unfold cancel
  split
  · exact .refl s
  next d hd =>
    obtain ⟨hrow, htask⟩ := dispatchForTask_eq_some hd
    split_ifs
    · exact .refl s
    · have hsaved := get_saveDispatch (r := { d with
        status := .cancelled, cleaned := d.cleaned || !d.published }) hrow rfl
      refine ⟨.of_eq rfl, fun _ keys hl => ?_, fun id hs => .inr ?_⟩
      · refine hl.saveDispatch hrow rfl rfl (fun h => by simp at h)
          (fun _ _ _ => ⟨t, htask ▸ hget, hcancelled⟩) ?_
        rintro g ⟨-, current, hcurrent, hle, -⟩
        exact ⟨by simp, current, hcurrent, hle, fun h => by simp at h⟩
      · refine hs.back (.of_eq (m := none) rfl) rfl ?_ (by simp)
        rintro ⟨k, e, he, rfl, hpending⟩
        refine ⟨k, e, (hsaved k).trans ((if_neg ?_).trans he), rfl, hpending⟩
        rintro rfl
        obtain rfl := Option.some.inj (hrow.symm.trans he)
        obtain ⟨u, hu, hq, -⟩ := hs
        have hu : s.db.tasks.get d.taskId = some u := hu
        rw [htask, hget] at hu
        obtain rfl := Option.some.inj hu
        rw [hcancelled] at hq
        cases hq

end Advance

section Rollup
variable {env : Env} {amb : Ambient} {P : String → Prop} {s s' : Session}

/-- Every task keeps its row or is armed. -/
structure Rearmed (s s' : Session) : Prop where
  rows : ∀ id, Armed s'.db id ∨ s'.db.tasks.get id = s.db.tasks.get id
  armed : ∀ id, Armed s.db id → Armed s'.db id

theorem Rearmed.refl (s : Session) : Rearmed s s := ⟨fun _ => .inr rfl, fun _ h => h⟩

theorem Rearmed.trans {s₁ s₂ s₃ : Session} (h : Rearmed s₁ s₂) (g : Rearmed s₂ s₃) :
    Rearmed s₁ s₃ := by
  refine ⟨fun id => ?_, fun id ha => g.armed id (h.armed id ha)⟩
  rcases g.rows id with ha | hrow
  · exact .inl ha
  · rcases h.rows id with ha | hrow'
    · exact .inl (g.armed id ha)
    · exact .inr (hrow.trans hrow')

variable (hplain : ∀ taskId, ':' ∉ (amb.dispatchId taskId).toList)
include hplain

theorem readmit_advance {change : ExecutionTask → ExecutionTask} {t : ExecutionTask}
    (hget : s.db.tasks.get t.id = some t) (hkept : Kept none t (change t))
    (h : readmitTask amb change s t = .ok s') :
    (Advance env none P s s' ∧ Rearmed s s') ∧ Armed s'.db t.id ∧
      ∀ k, k ≠ t.id → s'.db.tasks.get k = s.db.tasks.get k := by
  obtain ⟨hd, harmed⟩ := retry_dispatched hplain ⟨change t,
    (get_saveTask hget hkept.id _).trans (if_pos hkept.id), rfl⟩ h
  rw [hkept.id] at harmed
  have hothers : ∀ k, k ≠ t.id → s'.db.tasks.get k = s.db.tasks.get k := fun k hk => by
    rw [hd.tasks]
    exact (get_saveTask hget hkept.id k).trans (if_neg hk)
  have hsaved : Advance env none (· = t.id) s (s.saveTask (change t)) :=
    .saveTask hget hkept (fun _ => rfl) (by simp)
  refine ⟨⟨hsaved.arm hd harmed, fun id => ?_, hd.armed⟩, harmed, hothers⟩
  by_cases hid : id = t.id
  · exact .inl (hid ▸ harmed)
  · exact .inr (hothers id hid)

variable (env) in
theorem readmit_foldlM {change : ExecutionTask → ExecutionTask} {p : ExecutionTask → Bool}
    {missionId : String} (hkept : ∀ t, p t = true → Kept none t (change t))
    (h : ((s.db.listForMission missionId).filter p).foldlM (readmitTask amb change) s = .ok s') :
    (Advance env none P s s' ∧ Rearmed s s') ∧
      ∀ t ∈ (s.db.listForMission missionId).filter p, Armed s'.db t.id := by
  refine foldlM_tasks (R := fun s s' => Advance env none P s s' ∧ Rearmed s s')
    (Q := fun t s => Armed s.db t.id) (fun s => ⟨.refl s, .refl s⟩)
    (fun _ _ _ h g => ⟨h.1.trans g.1, h.2.trans g.2⟩) (fun t _ _ h => h.2.armed t.id)
    (fun s s' t ht hget hs => readmit_advance hplain hget (hkept t (List.of_mem_filter ht)) hs)
    ((List.filter_sublist.map _).nodup (listForMission_nodup s.db missionId))
    (fun t ht => get_of_listForMission (List.mem_of_mem_filter ht)) h

omit hplain in
/-- Nothing but a re-admission touches a dispatch, and that arms its task. -/
theorem advance_of_steps (hplain : ∀ taskId, ':' ∉ (amb.dispatchId taskId).toList)
    (h : ReflTransGen (RollupStep env amb) s s') : Advance env none P s s' := by
  induction h with
  | refl => exact .refl s
  | @tail s₁ s₂ _ hstep ih =>
    refine ih.trans ?_
    cases hstep with
    | mission mission => exact .of_eq rfl rfl
    | @readmission _ t t' hget hid hmove hretry =>
      obtain ⟨hd, harmed⟩ := retry_dispatched hplain ⟨t',
        (get_saveTask hget hid _).trans (if_pos hid), rfl⟩ hretry
      rw [hid] at harmed
      exact Advance.arm (.saveTask hget hmove.kept (fun _ => rfl) (by simp)) hd harmed
    | block failedKeys hget hstatus =>
      exact .saveIdle hget (RollupMove.block failedKeys _ hstatus).kept (by simp [blockDependent])

theorem maybeRollupMissionStatus_advance {fuel : ℕ} {task : ExecutionTask}
    (h : maybeRollupMissionStatus env amb fuel s task = .ok s') : Advance env none P s s' :=
  advance_of_steps hplain (maybeRollupMissionStatus_steps h)

/-- A queued task whose dispatch is not pending and that no dependency can wake. -/
def Lost (db : Db) (taskId : String) : Prop :=
  ∃ task, db.tasks.get taskId = some task ∧ task.status = .queued ∧ ¬ Armed db taskId ∧
    ¬ (task.dependencyDeferred = true ∧ ∃ key keys, task.dependencyKeys = some (key :: keys))

omit hplain in
theorem Lost.stranded {db : Db} {id : String} (h : Lost db id) : Stranded env db id := by
  obtain ⟨task, hget, hqueued, hdisarmed, hidle⟩ := h
  refine ⟨task, hget, hqueued, hdisarmed, fun hw => hidle ⟨hw.1, ?_⟩⟩
  obtain ⟨-, keys, key, hkeys, hkey, -⟩ := hw
  obtain ⟨k, ks, rfl⟩ := List.exists_cons_of_ne_nil (List.ne_nil_of_mem hkey)
  exact ⟨k, ks, hkeys⟩

omit hplain in
theorem Lost.back {id : String} (h : Lost s'.db id) (hrearmed : Rearmed s s') : Lost s.db id := by
  obtain ⟨task, hget, hqueued, hdisarmed, hidle⟩ := h
  have hrow := (hrearmed.rows id).resolve_left hdisarmed
  exact ⟨task, hrow ▸ hget, hqueued, fun ha => hdisarmed (hrearmed.armed id ha), hidle⟩

/-- The re-admissions of a rollup leave no deferred task of the mission stranded. -/
theorem readmitDependents_settles {missionId id : String}
    (h : readmitDependents env amb s missionId = .ok s') (hs : Stranded env s'.db id)
    (hmission : ∀ t, s'.db.tasks.get id = some t → t.missionId = missionId) : Lost s.db id := by
  obtain ⟨s₁, hrecover, hredispatch⟩ := bind_eq_ok.mp h
  obtain ⟨⟨-, hrearmed₁⟩, -⟩ := readmit_foldlM (P := fun _ => False) env hplain
    (p := recoverable env (s.db.listForMission missionId))
    (fun t ht => (RollupMove.recover amb.now t (recoverable_status ht)).kept) hrecover
  obtain ⟨⟨hadvance, hrearmed⟩, harmed⟩ := readmit_foldlM (P := fun _ => False) env hplain
    (p := redispatchable env (s₁.db.listForMission missionId))
    (fun t ht =>
      have hmove : RollupMove env t (redispatchDependent amb.now t) :=
        .redispatch amb.now t (redispatchable_status ht)
      hmove.kept) hredispatch
  obtain ⟨task, hget, hqueued, hdisarmed, hopen⟩ := hs
  have hrow := (hrearmed.rows id).resolve_left hdisarmed
  refine Lost.back ⟨task, hrow ▸ hget, hqueued, fun ha => hdisarmed (hrearmed.armed id ha), ?_⟩
    hrearmed₁
  rintro ⟨hdeferred, key, keys, hkeys⟩
  have hid : task.id = id := Rows.key_of_get hget
  have hmem : task ∈ s₁.db.listForMission missionId := by
    refine List.mem_filter.mpr ⟨Rows.mem_of_get (hrow ▸ hget), ?_⟩
    simpa using hmission task hget
  -- the task was not re-dispatched, so one of its dependencies was open, and it still is
  have hblocked : dependenciesCompleted env (s₁.db.listForMission missionId) task = false := by
    by_contra hcompleted
    refine hdisarmed (hid ▸ harmed task (List.mem_filter.mpr ⟨hmem, ?_⟩))
    simp only [redispatchable, hqueued, hdeferred, Bool.and_eq_true, decide_true, true_and]
    simpa using hcompleted
  have hkey : ∃ k ∈ key :: keys,
      nodeOpen (s₁.db.listForMission missionId) (pyStr env k) = true := by
    by_contra hnone
    push Not at hnone
    refine Bool.false_ne_true (hblocked.symm.trans (dependenciesCompleted_iff.mpr
      ⟨key :: keys, hkeys, by simp, fun k hk => by simpa using hnone k hk⟩))
  obtain ⟨k, hk, hkopen⟩ := hkey
  have hwaiting : Waiting env s₁.db task :=
    ⟨hdeferred, key :: keys, k, hkeys, hk, by rwa [hmission task hget]⟩
  exact hopen (hwaiting.kept hadvance.tasks (by simp) rfl rfl rfl)

omit hplain in
theorem reconcileReviewHold_status (db : Db) (now : String) (mission : Mission) :
    (reconcileReviewHold db now mission).status = mission.status ∨
      (mission.status = .running ∧ (reconcileReviewHold db now mission).status = .paused) := by
  unfold reconcileReviewHold
  dsimp only
  split_ifs with h
  · exact .inr ⟨h.1, rfl⟩
  · exact .inl rfl

/-- The rollup of a mission looks at its tasks: it is there and not terminal. -/
def rollupRuns (db : Db) (missionId tenantId : String) : Bool :=
  match db.missions.get missionId with
  | none => false
  | some mission => mission.tenantId = tenantId && !mission.status.terminal

/-- A rollup that runs leaves no deferred task of its mission stranded. -/
theorem maybeRollupMissionStatus_settles {fuel : ℕ} {task t : ExecutionTask} {id : String}
    (h : maybeRollupMissionStatus env amb fuel s task = .ok s')
    (hruns : rollupRuns s.db task.missionId task.tenantId = true)
    (hget : s.db.tasks.get id = some t) (hmission : t.missionId = task.missionId)
    (hs : Stranded env s'.db id) : Lost s.db id := by
  cases fuel with
  | zero => cases h
  | succ fuel =>
    unfold maybeRollupMissionStatus at h
    unfold rollupRuns at hruns
    split at hruns
    · cases hruns
    next mission hrow =>
      obtain ⟨htenant, hterminal⟩ : mission.tenantId = task.tenantId ∧
          mission.status.terminal = false := by simpa using hruns
      have hload : getMissionForTenant s amb.now task.missionId task.tenantId =
          some (s.saveMission (reconcileReviewHold s.db amb.now mission),
            reconcileReviewHold s.db amb.now mission) := by
        simp [getMissionForTenant, hrow, htenant]
      have hrunning : (reconcileReviewHold s.db amb.now mission).status.terminal = false := by
        rcases reconcileReviewHold_status s.db amb.now mission with hst | ⟨-, hst⟩
        · rw [hst, hterminal]
        · rw [hst]
          rfl
      have hsiblings : ((s.saveMission (reconcileReviewHold s.db amb.now mission)).db.listForMission
          task.missionId).isEmpty = false := by
        rw [List.isEmpty_eq_false_iff]
        exact List.ne_nil_of_mem (List.mem_filter.mpr
          ⟨Rows.mem_of_get hget, by simpa using hmission⟩)
      rw [hload] at h
      dsimp only at h
      rw [if_neg (by simp [hrunning]), if_neg (Bool.eq_false_iff.mp hsiblings)] at h
      obtain ⟨s₂, hreadmission, hrest⟩ := bind_eq_ok.mp h
      have hadvance : Advance env none (fun _ => False) s₂ s' := by
        split_ifs at hrest
        · obtain rfl := Except.ok.inj hrest
          exact advance_of_steps hplain (markRunning_steps s₂ _)
        · exact advance_of_steps hplain (finishMission_steps hrest)
        · exact advance_of_steps hplain
            ((blockDependents_steps s₂ _ _).trans (maybeRollupMissionStatus_steps hrest))
      have hs₂ := (hadvance.stranded id hs).resolve_left not_false
      have htasks : TasksKept none s.db s₂.db :=
        (advance_of_steps (P := fun _ => False) hplain (readmitDependents_steps hreadmission)).tasks
      have hlost := readmitDependents_settles hplain hreadmission hs₂ fun u hu => by
        obtain ⟨v, hv, hkept⟩ := htasks.get_rev hu
        obtain rfl := Option.some.inj (hget.symm.trans hv)
        exact hkept.missionId.trans hmission
      exact hlost

end Rollup

end Ajenda.Runtime
