import Ajenda.DeliveryFrame
import Ajenda.RuntimeCluster
import Ajenda.WorkerMethods

/-!
# What a worker's transaction does to a mission

A worker's transaction writes tasks of one mission and the row of that mission. It leaves a
mission that still has open tasks in a state that is not terminal, and a mission without open
tasks completed or failed, with an acceptance evaluated over the tasks as they are.
-/
namespace Ajenda.Runtime
open JsonValue KeyedRows Relation

/-- The columns of the tasks that a worker never writes. -/
def Db.taskKeys (db : Db) : List (String × String × String) :=
  db.tasks.list.map fun t => (t.id, t.missionId, t.tenantId)

/-- The mission is completed or failed with an acceptance evaluated over these tasks. -/
structure MissionFinished (env : Env) (mission : Mission) (tasks : List ExecutionTask) : Prop where
  status : mission.status = .completed ∨ mission.status = .failed
  accepted : ∃ now acceptance, evaluateAcceptance env mission tasks = .ok acceptance ∧
    Fields.get mission.metadata "acceptance" = some (acceptanceJson env now acceptance tasks)

def AllTerminal (tasks : List ExecutionTask) : Prop := ∀ t ∈ tasks, t.status.terminal = true

/-- The mission has an open task and is not terminal, or has none and is finished. -/
def MissionCoherent (env : Env) (tenantId missionId : String) (db : Db) : Prop :=
  ∃ mission, db.missions.get missionId = some mission ∧ mission.tenantId = tenantId ∧
    ((mission.status.terminal = false ∧
        ∃ t ∈ db.listForMission missionId, t.status.terminal = false) ∨
      (AllTerminal (db.listForMission missionId) ∧
        MissionFinished env mission (db.listForMission missionId)))

/-- The mission is there and not terminal. -/
def Underway (tenantId missionId : String) (db : Db) : Prop :=
  ∃ mission, db.missions.get missionId = some mission ∧ mission.tenantId = tenantId ∧
    mission.status.terminal = false

section Rows
variable {db db' : Db} {missionId : String}

theorem mem_listForMission {t : ExecutionTask} {id : String} (h : db.tasks.get id = some t)
    (hmission : t.missionId = missionId) : t ∈ db.listForMission missionId :=
  List.mem_filter.2 ⟨Rows.mem_of_get h, by simpa using hmission⟩

theorem missionId_of_mem {t : ExecutionTask} (h : t ∈ db.listForMission missionId) :
    t.missionId = missionId := by
  simpa using (List.mem_filter.1 h).2

theorem listForMission_keys (db : Db) (missionId : String) :
    (db.listForMission missionId).map (fun t => (t.id, t.missionId, t.tenantId)) =
      db.taskKeys.filter fun k => k.2.1 = missionId := by
  rw [Db.taskKeys, List.filter_map]
  rfl

theorem listForMission_ne_nil (hkeys : db'.taskKeys = db.taskKeys)
    (h : db.listForMission missionId ≠ []) : db'.listForMission missionId ≠ [] := by
  intro hnil
  have hmap := listForMission_keys db' missionId
  rw [hnil, hkeys, ← listForMission_keys db missionId] at hmap
  exact h (List.map_eq_nil_iff.1 hmap.symm)

/-- The tasks of a mission are read off their keys and the rows. -/
theorem listForMission_eq_filterMap (db : Db) (missionId : String) :
    db.listForMission missionId =
      (db.taskKeys.filter fun k => k.2.1 = missionId).filterMap fun k => db.tasks.get k.1 := by
  rw [← listForMission_keys, List.filterMap_map]
  have hget : ∀ t ∈ db.listForMission missionId,
      ((fun k : String × String × String => db.tasks.get k.1) ∘
        fun t : ExecutionTask => (t.id, t.missionId, t.tenantId)) t = some t := by
    intro t ht
    exact get_of_listForMission ht
  rw [List.filterMap_congr hget, List.filterMap_some]

theorem listForMission_congr (hkeys : db'.taskKeys = db.taskKeys)
    (h : ∀ k ∈ db.taskKeys, k.2.1 = missionId → db'.tasks.get k.1 = db.tasks.get k.1) :
    db'.listForMission missionId = db.listForMission missionId := by
  rw [listForMission_eq_filterMap, listForMission_eq_filterMap db, hkeys]
  apply List.filterMap_congr
  intro k hk
  rw [List.mem_filter] at hk
  exact h k hk.1 (by simpa using hk.2)

theorem get_eq_of_listForMission (h : db'.listForMission missionId = db.listForMission missionId)
    {k : String × String × String} (hk : k ∈ db.taskKeys)
    (hmission : k.2.1 = missionId) : db'.tasks.get k.1 = db.tasks.get k.1 := by
  obtain ⟨t, ht, rfl⟩ := List.mem_map.1 hk
  have hmem : t ∈ db.listForMission missionId :=
    mem_listForMission (Rows.get_of_mem ht) hmission
  rw [get_of_listForMission hmem]
  rw [← h] at hmem
  exact get_of_listForMission hmem

theorem filter_map_same {α : Type*} {l : List α} {p : α → Bool} {g : α → α}
    (h : ∀ a ∈ l, p (g a) = p a ∧ (p a = true → g a = a)) : (l.map g).filter p = l.filter p := by
  induction l with
  | nil => rfl
  | cons a l ih =>
    obtain ⟨hp, hg⟩ := h a (by simp)
    have hrest := ih fun b hb => h b (by simp [hb])
    rw [List.map_cons, List.filter_cons, List.filter_cons, hp, hrest]
    split_ifs with ha
    · rw [hg ha]
    · rfl

end Rows

/-- What a transaction on the tasks of one mission is made of. -/
inductive MissionStep (missionId : String) : Session → Session → Prop
  | mission (s : Session) {mission : Mission} (hid : mission.id = missionId) :
      MissionStep missionId s (s.saveMission mission)
  | task {s : Session} {t t' : ExecutionTask} (hget : s.db.tasks.get t.id = some t)
      (hmission : t.missionId = missionId) (hid : t'.id = t.id)
      (hcolumns : t'.missionId = t.missionId ∧ t'.tenantId = t.tenantId) :
      MissionStep missionId s (s.saveTask t')
  | other {s s' : Session} (htasks : s'.db.tasks = s.db.tasks)
      (hmissions : s'.db.missions = s.db.missions) : MissionStep missionId s s'

section Steps
variable {s s' : Session} {missionId : String}

theorem stored_of_id {t t' q : ExecutionTask} (hget : s.db.tasks.get t.id = some t)
    (hid : t'.id = t.id) (hq : q ∈ s.db.tasks.list) (hkey : q.id = t'.id) : q = t := by
  have hrow : s.db.tasks.get q.id = some q := Rows.get_of_mem hq
  rw [hkey, hid, hget] at hrow
  exact (Option.some_inj.1 hrow).symm

theorem MissionStep.taskKeys (h : MissionStep missionId s s') :
    s'.db.taskKeys = s.db.taskKeys := by
  cases h with
  | mission => rfl
  | task hget hmission hid hcolumns =>
    rename_i t t'
    simp only [Db.taskKeys, Session.saveTask, Rows.set, List.map_map]
    apply List.map_congr_left
    intro q hq
    simp only [Function.comp_apply]
    split_ifs with hkey
    · rw [stored_of_id hget hid hq hkey, hid, hcolumns.1, hcolumns.2]
    · rfl
  | other htasks => rw [Db.taskKeys, htasks, Db.taskKeys]

/-- The other missions and their tasks are left alone. -/
theorem MissionStep.frame (h : MissionStep missionId s s') {other : String}
    (hne : other ≠ missionId) : s'.db.missions.get other = s.db.missions.get other ∧
      s'.db.listForMission other = s.db.listForMission other := by
  cases h with
  | mission hid =>
    refine ⟨Rows.get_set_ne _ ?_, rfl⟩
    intro heq
    exact hne (heq.trans hid)
  | task hget hmission hid hcolumns =>
    rename_i t t'
    refine ⟨rfl, ?_⟩
    apply filter_map_same
    intro q hq
    split_ifs with hkey
    · have hstored : q = t := stored_of_id hget hid hq hkey
      have hother : t.missionId ≠ other := by
        rw [hmission]
        exact hne.symm
      simp [hstored, hcolumns.1, hother]
    · exact ⟨rfl, fun _ => rfl⟩
  | other htasks hmissions =>
    rw [hmissions, Db.listForMission, htasks, Db.listForMission]
    exact ⟨rfl, rfl⟩

theorem missionSteps_taskKeys (h : ReflTransGen (MissionStep missionId) s s') :
    s'.db.taskKeys = s.db.taskKeys := by
  induction h with
  | refl => rfl
  | tail _ hstep ih => exact hstep.taskKeys.trans ih

theorem missionSteps_frame (h : ReflTransGen (MissionStep missionId) s s') {other : String}
    (hne : other ≠ missionId) : s'.db.missions.get other = s.db.missions.get other ∧
      s'.db.listForMission other = s.db.listForMission other := by
  induction h with
  | refl => exact ⟨rfl, rfl⟩
  | tail _ hstep ih =>
    obtain ⟨hmission, htasks⟩ := hstep.frame hne
    exact ⟨hmission.trans ih.1, htasks.trans ih.2⟩

end Steps

section Rollup
variable {env : Env} {amb : Ambient} {s s' : Session} {missionId : String}

theorem retry_other {task : ExecutionTask} (h : retry amb s task = .ok s') :
    s'.db.tasks = s.db.tasks ∧ s'.db.missions = s.db.missions := by
  rw [retry_db h]
  exact ⟨rfl, rfl⟩

theorem readmit_missionSteps {f : ExecutionTask → ExecutionTask} {p : ExecutionTask → Bool}
    (hid : ∀ t, (f t).id = t.id)
    (hcolumns : ∀ t, (f t).missionId = t.missionId ∧ (f t).tenantId = t.tenantId)
    (h : ((s.db.listForMission missionId).filter p).foldlM (readmitTask amb f) s = .ok s') :
    ReflTransGen (MissionStep missionId) s s' ∧ s'.db.missions = s.db.missions := by
  let R : Session → Session → Prop := fun s s' =>
    ReflTransGen (MissionStep missionId) s s' ∧ s'.db.missions = s.db.missions
  have hrun := foldlM_tasks (R := R) (Q := fun _ _ => True) (fun _ => ⟨.refl, rfl⟩)
    (fun _ _ _ h g => ⟨h.1.trans g.1, g.2.trans h.2⟩) (fun _ _ _ _ h => h)
    (fun s s' t ht hget hs => ?_)
    ((List.filter_sublist.map _).nodup (listForMission_nodup s.db missionId))
    (fun t ht => get_of_listForMission (List.mem_of_mem_filter ht)) h
  · exact hrun.1
  · obtain ⟨htasks, hmissions⟩ := retry_other hs
    have hmission : t.missionId = missionId := missionId_of_mem (List.mem_of_mem_filter ht)
    have hsaved : MissionStep missionId s (s.saveTask (f t)) :=
      .task hget hmission (hid t) (hcolumns t)
    refine ⟨⟨(ReflTransGen.single hsaved).tail (.other htasks hmissions), hmissions⟩, trivial, ?_⟩
    intro k hk
    rw [htasks]
    exact (get_saveTask hget (hid t) k).trans (if_neg hk)

theorem readmitDependents_missionSteps (h : readmitDependents env amb s missionId = .ok s') :
    ReflTransGen (MissionStep missionId) s s' ∧ s'.db.missions = s.db.missions := by
  obtain ⟨s₁, hrecover, hredispatch⟩ := bind_eq_ok.1 h
  have hfirst := readmit_missionSteps (f := recoverDependent env amb.now) (fun _ => rfl)
    (fun _ => ⟨rfl, rfl⟩) hrecover
  have hsecond := readmit_missionSteps (f := redispatchDependent amb.now) (fun _ => rfl)
    (fun _ => ⟨rfl, rfl⟩) hredispatch
  exact ⟨hfirst.1.trans hsecond.1, hsecond.2.trans hfirst.2⟩

variable (env) in
theorem blockDependents_missionSteps (s : Session) (missionId : String) (p : ExecutionTask → Bool)
    (failedKeys : List String) :
    let s' := ((s.db.listForMission missionId).filter p).foldl
      (fun s t => s.saveTask (blockDependent env failedKeys t)) s
    ReflTransGen (MissionStep missionId) s s' ∧ s'.db.missions = s.db.missions := by
  let R : Session → Session → Prop := fun s s' =>
    ReflTransGen (MissionStep missionId) s s' ∧ s'.db.missions = s.db.missions
  have hrun := foldlM_tasks (R := R) (Q := fun _ _ => True)
    (f := fun s t => .ok (s.saveTask (blockDependent env failedKeys t))) (fun _ => ⟨.refl, rfl⟩)
    (fun _ _ _ h g => ⟨h.1.trans g.1, g.2.trans h.2⟩) (fun _ _ _ _ h => h)
    (fun s s' t ht hget hs => ?_)
    ((List.filter_sublist.map _).nodup (listForMission_nodup s.db missionId))
    (fun t ht => get_of_listForMission (List.mem_of_mem_filter (p := p) ht)) List.foldlM_pure
  · exact hrun.1
  · obtain rfl := Except.ok.inj hs
    have hmission : t.missionId = missionId := missionId_of_mem (List.mem_of_mem_filter ht)
    refine ⟨⟨.single (.task hget hmission rfl ⟨rfl, rfl⟩), rfl⟩, trivial, ?_⟩
    intro k hk
    exact (get_saveTask (u := blockDependent env failedKeys t) hget rfl k).trans (if_neg hk)

theorem reconcileReviewHold_columns (db : Db) (now : String) (mission : Mission) :
    (reconcileReviewHold db now mission).id = mission.id ∧
      (reconcileReviewHold db now mission).tenantId = mission.tenantId := by
  unfold reconcileReviewHold
  dsimp only
  split_ifs <;> exact ⟨rfl, rfl⟩

theorem reconcileReviewHold_open {db : Db} {now : String} {mission : Mission}
    (h : mission.status.terminal = false) :
    (reconcileReviewHold db now mission).status.terminal = false := by
  rcases reconcileReviewHold_status db now mission with hst | ⟨-, hst⟩
  · rw [hst, h]
  · rw [hst]
    rfl

theorem getMissionForTenant_eq_some {now tenantId : String} {mission : Mission}
    (h : getMissionForTenant s now missionId tenantId = some (s', mission)) :
    ∃ stored, s.db.missions.get missionId = some stored ∧ stored.tenantId = tenantId ∧
      mission = reconcileReviewHold s.db now stored ∧ mission.id = missionId ∧
      s' = s.saveMission mission := by
  unfold getMissionForTenant at h
  split at h
  · cases h
  next stored hstored =>
    split_ifs at h with htenant
    obtain ⟨rfl, rfl⟩ := Prod.mk.inj (Option.some.inj h)
    refine ⟨stored, hstored, htenant, rfl, ?_, rfl⟩
    rw [(reconcileReviewHold_columns _ _ _).1]
    exact Rows.key_of_get hstored

theorem getMissionForTenant_missionStep {now tenantId : String} {mission : Mission}
    (h : getMissionForTenant s now missionId tenantId = some (s', mission)) :
    MissionStep missionId s s' := by
  obtain ⟨_, _, _, _, hid, rfl⟩ := getMissionForTenant_eq_some h
  exact .mission s hid

theorem getMissionForTenant_of_row {now tenantId : String} {mission : Mission}
    (hrow : s.db.missions.get missionId = some mission) (htenant : mission.tenantId = tenantId) :
    getMissionForTenant s now missionId tenantId =
      some (s.saveMission (reconcileReviewHold s.db now mission),
        reconcileReviewHold s.db now mission) := by
  simp [getMissionForTenant, hrow, htenant]

/-- A mission row that is written. -/
theorem get_saveMission_row {mission m : Mission}
    (hrow : s.db.missions.get missionId = some mission) (hid : m.id = missionId) :
    (s.saveMission m).db.missions.get missionId = some m := by
  have hkey : mission.id = missionId := Rows.key_of_get hrow
  rw [← hkey] at hrow
  rw [get_saveMission hrow (hid.trans hkey.symm), if_pos hkey.symm]

theorem markRunning_row {mission : Mission}
    (hrow : s.db.missions.get missionId = some mission) (hopen : mission.status.terminal = false) :
    ∃ m, (markRunning s mission).db.missions.get missionId = some m ∧
      m.tenantId = mission.tenantId ∧ m.status.terminal = false := by
  unfold markRunning
  split_ifs
  · split
    next m hm =>
      obtain ⟨-, rfl⟩ := transitionMission_eq_ok.1 hm
      exact ⟨_, get_saveMission_row hrow (Rows.key_of_get hrow), rfl, rfl⟩
    · exact ⟨mission, hrow, rfl, hopen⟩
  · exact ⟨mission, hrow, rfl, hopen⟩

theorem markRunning_tasks (s : Session) (mission : Mission) :
    (markRunning s mission).db.tasks = s.db.tasks := by
  unfold markRunning
  split_ifs
  · split <;> rfl
  · rfl

theorem markRunning_missionStep (s : Session) {mission : Mission} (hid : mission.id = missionId) :
    ReflTransGen (MissionStep missionId) s (markRunning s mission) := by
  unfold markRunning
  split_ifs
  · split
    next m hm =>
      obtain ⟨-, rfl⟩ := transitionMission_eq_ok.1 hm
      exact .single (.mission s hid)
    · exact .refl
  · exact .refl

theorem evaluateAcceptance_congr {mission m : Mission} {siblings : List ExecutionTask}
    (h : Fields.get m.metadata "mission_intake" = Fields.get mission.metadata "mission_intake") :
    evaluateAcceptance env m siblings = evaluateAcceptance env mission siblings := by
  have hcomposition : compositionOf m = compositionOf mission := by
    rw [compositionOf, h, compositionOf]
  rw [evaluateAcceptance, evaluateAcceptance, missionAcceptanceContract, missionAcceptanceContract,
    deliverableIncomplete, deliverableIncomplete, hcomposition]

/-- The end of a mission that is not terminal is legal, whatever its state. -/
theorem finishMission_eq_ok {now : String} {mission : Mission} {siblings : List ExecutionTask}
    (hopen : mission.status.terminal = false)
    (h : finishMission env now s mission siblings = .ok s') :
    ∃ m, s' = s.saveMission m ∧ m.id = mission.id ∧ m.tenantId = mission.tenantId ∧
      MissionFinished env m siblings := by
  obtain ⟨acceptance, hacceptance, hrest⟩ := bind_eq_ok.1 h
  have hset : ∀ status, evaluateAcceptance env { mission with
      status := status
      metadata := Fields.set mission.metadata "acceptance"
        (acceptanceJson env now acceptance siblings) } siblings = .ok acceptance := by
    intro status
    rw [← hacceptance]
    apply evaluateAcceptance_congr
    exact Fields.get_set_ne _ _ (by simp)
  have hended : ∀ status, (status = .completed ∨ status = .failed) →
      MissionFinished env { mission with
        status := status
        metadata := Fields.set mission.metadata "acceptance"
          (acceptanceJson env now acceptance siblings) } siblings := by
    intro status hstatus
    exact ⟨hstatus, now, acceptance, hset status, Fields.get_set_self _ _ _⟩
  have hend : ∃ status, (status = .completed ∨ status = .failed) ∧
      s' = s.saveMission { mission with
        status := status
        metadata := Fields.set mission.metadata "acceptance"
          (acceptanceJson env now acceptance siblings) } := by
    dsimp only at hrest
    cases hstatus : mission.status <;>
      simp [hstatus, MissionState.terminal, MissionState.notStarted, transitionMission,
        missionAllowed] at hopen hrest <;>
      split_ifs at hrest <;>
      simp_all [pure, Except.pure]
  obtain ⟨status, hstatus, rfl⟩ := hend
  exact ⟨_, rfl, rfl, rfl, hended status hstatus⟩

theorem maybeRollupMissionStatus_missionSteps {fuel : ℕ} {task : ExecutionTask}
    (h : maybeRollupMissionStatus env amb fuel s task = .ok s') :
    ReflTransGen (MissionStep task.missionId) s s' := by
  induction fuel generalizing s with
  | zero => cases h
  | succ fuel ih =>
    unfold maybeRollupMissionStatus at h
    split at h
    · obtain rfl := Except.ok.inj h
      exact .refl
    next s₁ mission hload =>
      have hloaded := ReflTransGen.single (getMissionForTenant_missionStep hload)
      obtain ⟨_, _, _, _, hid, _⟩ := getMissionForTenant_eq_some hload
      split_ifs at h with hterminal hempty
      · obtain rfl := Except.ok.inj h
        exact hloaded
      · obtain rfl := Except.ok.inj h
        exact hloaded
      · obtain ⟨s₂, hreadmission, hrest⟩ := bind_eq_ok.1 h
        have hreadmitted := hloaded.trans (readmitDependents_missionSteps hreadmission).1
        dsimp only at hrest
        split_ifs at hrest
        · obtain rfl := Except.ok.inj hrest
          exact hreadmitted.trans (markRunning_missionStep s₂ hid)
        · obtain ⟨m, rfl, hm, -⟩ := finishMission_eq_ok (Bool.eq_false_iff.2 hterminal) hrest
          exact hreadmitted.tail (.mission s₂ (hm.trans hid))
        · exact (hreadmitted.trans (blockDependents_missionSteps env s₂ _ _ _).1).trans (ih hrest)

/-- A rollup of a mission that is under way leaves it coherent. -/
theorem maybeRollupMissionStatus_coherent {fuel : ℕ} {task : ExecutionTask}
    (h : maybeRollupMissionStatus env amb fuel s task = .ok s')
    (hunder : Underway task.tenantId task.missionId s.db)
    (htasks : s.db.listForMission task.missionId ≠ []) :
    MissionCoherent env task.tenantId task.missionId s'.db := by
  induction fuel generalizing s with
  | zero => cases h
  | succ fuel ih =>
    obtain ⟨mission, hrow, htenant, hopen⟩ := hunder
    unfold maybeRollupMissionStatus at h
    rw [getMissionForTenant_of_row hrow htenant] at h
    dsimp only at h
    set held := reconcileReviewHold s.db amb.now mission with hheld
    have hheldOpen : held.status.terminal = false := reconcileReviewHold_open hopen
    have hheldId : held.id = task.missionId :=
      (reconcileReviewHold_columns _ _ _).1.trans (Rows.key_of_get hrow)
    have hheldTenant : held.tenantId = task.tenantId :=
      (reconcileReviewHold_columns _ _ _).2.trans htenant
    have hheldRow := get_saveMission_row hrow hheldId
    have hsome : ((s.saveMission held).db.listForMission task.missionId).isEmpty = false := by
      rw [List.isEmpty_eq_false_iff]
      exact htasks
    rw [if_neg (by simp [hheldOpen]), if_neg (by simp [hsome])] at h
    obtain ⟨s₂, hreadmission, hrest⟩ := bind_eq_ok.1 h
    obtain ⟨hsteps, hmissions⟩ := readmitDependents_missionSteps hreadmission
    have hrow₂ : s₂.db.missions.get task.missionId = some held := by
      rw [hmissions]
      exact hheldRow
    have htasks₂ : s₂.db.listForMission task.missionId ≠ [] :=
      listForMission_ne_nil (missionSteps_taskKeys hsteps) htasks
    split_ifs at hrest with hblocked hany
    · obtain rfl := Except.ok.inj hrest
      obtain ⟨m, hm, hmTenant, hmOpen⟩ := markRunning_row hrow₂ hheldOpen
      obtain ⟨t, ht, htOpen⟩ := List.any_eq_true.1 hany
      refine ⟨m, hm, hmTenant.trans hheldTenant, Or.inl ⟨hmOpen, t, ?_, by simpa using htOpen⟩⟩
      rw [Db.listForMission, markRunning_tasks]
      exact ht
    · obtain ⟨m, rfl, hmId, hmTenant, hfinished⟩ := finishMission_eq_ok hheldOpen hrest
      refine ⟨m, get_saveMission_row hrow₂ (hmId.trans hheldId), hmTenant.trans hheldTenant,
        Or.inr ⟨?_, hfinished⟩⟩
      intro t ht
      by_contra hne
      apply hany
      rw [List.any_eq_true]
      exact ⟨t, ht, by simpa using hne⟩
    · obtain ⟨hblockSteps, hblockMissions⟩ := blockDependents_missionSteps env s₂
        task.missionId (blockable env (failedNodeKeys (s₂.db.listForMission task.missionId)))
        (failedNodeKeys (s₂.db.listForMission task.missionId))
      apply ih hrest
      · rw [Underway, hblockMissions]
        exact ⟨held, hrow₂, hheldTenant, hheldOpen⟩
      · exact listForMission_ne_nil (missionSteps_taskKeys hblockSteps) htasks₂

end Rollup

/-- The tasks of the mission are the tenant's. -/
def TasksOf (tenantId missionId : String) (db : Db) : Prop :=
  ∀ k ∈ db.taskKeys, k.2.1 = missionId → k.2.2 = tenantId

/-- What a worker's transaction makes of a session: it writes one mission with its tasks, and
keeps it coherent. -/
def Worked (env : Env) (s s' : Session) : Prop :=
  ∃ missionId, ReflTransGen (MissionStep missionId) s s' ∧ ∀ tenantId,
    TasksOf tenantId missionId s.db → MissionCoherent env tenantId missionId s.db →
      MissionCoherent env tenantId missionId s'.db

section Transactions
variable {env : Env} {amb : Ambient} {s s₁ s' : Session} {tenantId leaseId workerId : String}

theorem Worked.refl (s : Session) : Worked env s s := ⟨"", .refl, fun _ _ h => h⟩

theorem Worked.taskKeys (h : Worked env s s') : s'.db.taskKeys = s.db.taskKeys := by
  obtain ⟨_, hsteps, _⟩ := h
  exact missionSteps_taskKeys hsteps

theorem Worked.coherent {missionId : String} (h : Worked env s s')
    (htasks : TasksOf tenantId missionId s.db)
    (hcoherent : MissionCoherent env tenantId missionId s.db) :
    MissionCoherent env tenantId missionId s'.db := by
  obtain ⟨own, hsteps, hown⟩ := h
  by_cases heq : missionId = own
  · rw [heq] at htasks hcoherent ⊢
    exact hown tenantId htasks hcoherent
  · obtain ⟨hmission, hlist⟩ := missionSteps_frame hsteps heq
    rw [MissionCoherent, hmission, hlist]
    exact hcoherent

theorem tenantId_of_tasksOf {task : ExecutionTask} (h : TasksOf tenantId task.missionId s.db)
    (hget : s.db.tasks.get task.id = some task) : task.tenantId = tenantId :=
  h _ (List.mem_map_of_mem (Rows.mem_of_get hget)) rfl

/-- A mission with an open task is under way. -/
theorem underway_of_coherent {task : ExecutionTask} {missionId : String}
    (h : MissionCoherent env tenantId missionId s.db)
    (hmem : task ∈ s.db.listForMission missionId) (hopen : task.status.terminal = false) :
    Underway tenantId missionId s.db := by
  obtain ⟨mission, hrow, htenant, ⟨hmission, -⟩ | ⟨hall, -⟩⟩ := h
  · exact ⟨mission, hrow, htenant, hmission⟩
  · have hterminal := hall task hmem
    rw [hopen] at hterminal
    cases hterminal

theorem underway_getMission {missionId now t : String} {mission : Mission}
    (h : getMissionForTenant s now missionId t = some (s', mission))
    (hunder : Underway tenantId missionId s.db) :
    s'.db.missions.get missionId = some mission ∧ mission.tenantId = tenantId ∧
      mission.status.terminal = false := by
  obtain ⟨stored, hstored, -, rfl, hid, rfl⟩ := getMissionForTenant_eq_some h
  obtain ⟨mission', hrow, htenant, hopen⟩ := hunder
  obtain rfl : stored = mission' := Option.some_inj.1 (hstored.symm.trans hrow)
  exact ⟨get_saveMission_row hrow hid, (reconcileReviewHold_columns _ _ _).2.trans htenant,
    reconcileReviewHold_open hopen⟩

variable (env amb) in
theorem refreshDeliverableReadModel_kept (s : Session) (task : ExecutionTask) :
    ReflTransGen (MissionStep task.missionId) s (refreshDeliverableReadModel env amb s task) ∧
      ∀ tenantId, Underway tenantId task.missionId s.db →
        Underway tenantId task.missionId (refreshDeliverableReadModel env amb s task).db := by
  unfold refreshDeliverableReadModel
  split
  · exact ⟨.refl, fun _ h => h⟩
  next s₁ mission hload =>
    have hloaded := ReflTransGen.single (getMissionForTenant_missionStep hload)
    obtain ⟨_, _, _, _, hid, _⟩ := getMissionForTenant_eq_some hload
    split
    · refine ⟨hloaded, fun tenantId hunder => ?_⟩
      exact ⟨mission, underway_getMission hload hunder⟩
    next metadata _ =>
      refine ⟨hloaded.tail (.mission s₁ hid), fun tenantId hunder => ?_⟩
      obtain ⟨hrow, htenant, hopen⟩ := underway_getMission hload hunder
      exact ⟨_, get_saveMission_row hrow hid, htenant, hopen⟩

/-- A transaction that leaves an open task of its mission behind. -/
theorem worked_of_open {task : ExecutionTask} (hget : s.db.tasks.get task.id = some task)
    (hopen : task.status.terminal = false)
    (hsteps : ReflTransGen (MissionStep task.missionId) s s')
    (hunder : ∀ tenantId, Underway tenantId task.missionId s.db →
      Underway tenantId task.missionId s'.db)
    (hafter : ∃ t ∈ s'.db.listForMission task.missionId, t.status.terminal = false) :
    Worked env s s' := by
  refine ⟨task.missionId, hsteps, fun tenantId _ hcoherent => ?_⟩
  obtain ⟨mission, hrow, htenant, hmission⟩ := hunder tenantId
    (underway_of_coherent hcoherent (mem_listForMission hget rfl) hopen)
  exact ⟨mission, hrow, htenant, Or.inl ⟨hmission, hafter⟩⟩

/-- A transaction that ends with the rollup of its task. -/
theorem worked_of_rollup {fuel : ℕ} {task task' : ExecutionTask}
    (hget : s.db.tasks.get task.id = some task) (hopen : task.status.terminal = false)
    (hsteps : ReflTransGen (MissionStep task.missionId) s s₁)
    (hunder : ∀ tenantId, Underway tenantId task.missionId s.db →
      Underway tenantId task.missionId s₁.db)
    (hcolumns : task'.missionId = task.missionId ∧ task'.tenantId = task.tenantId)
    (hrollup : maybeRollupMissionStatus env amb fuel s₁ task' = .ok s') : Worked env s s' := by
  have hrolled := maybeRollupMissionStatus_missionSteps hrollup
  rw [hcolumns.1] at hrolled
  refine ⟨task.missionId, hsteps.trans hrolled, fun tenantId htasks hcoherent => ?_⟩
  have hmem : task ∈ s.db.listForMission task.missionId := mem_listForMission hget rfl
  have hstarted := hunder tenantId (underway_of_coherent hcoherent hmem hopen)
  have hne : s₁.db.listForMission task.missionId ≠ [] :=
    listForMission_ne_nil (missionSteps_taskKeys hsteps) (List.ne_nil_of_mem hmem)
  have hdone := maybeRollupMissionStatus_coherent hrollup
  rw [hcolumns.1, hcolumns.2, tenantId_of_tasksOf htasks hget] at hdone
  exact hdone hstarted hne

theorem addLease_untouched {lease : WorkerLease} (h : addLease s lease = .ok s') :
    s'.db.tasks = s.db.tasks ∧ s'.db.missions = s.db.missions := by
  unfold addLease at h
  split at h
  · cases h
  · obtain rfl := Except.ok.inj h
    exact ⟨rfl, rfl⟩

theorem recordOutput_columns {task task' : ExecutionTask} {lease : WorkerLease}
    {taskOutput : Option Fields} {outputReason : Option String}
    (h : recordOutput env s task lease taskOutput outputReason = .ok (s', task')) :
    s'.db.tasks = s.db.tasks ∧ s'.db.missions = s.db.missions ∧ task'.id = task.id ∧
      task'.missionId = task.missionId ∧ task'.tenantId = task.tenantId := by
  cases taskOutput with
  | none =>
    obtain ⟨rfl, rfl⟩ := Prod.mk.inj (Except.ok.inj h)
    exact ⟨rfl, rfl, rfl, rfl, rfl⟩
  | some taskOutput =>
    obtain ⟨records, -, hrest⟩ := bind_eq_ok.1 h
    obtain ⟨rfl, rfl⟩ := Prod.mk.inj (Except.ok.inj hrest)
    refine ⟨rfl, rfl, ?_⟩
    split_ifs <;> exact ⟨rfl, rfl, rfl⟩

theorem startExecution_worked (h : startExecution s tenantId leaseId workerId = .ok s') :
    Worked env s s' := by
  obtain ⟨lease, hlease, hrest⟩ := bind_eq_ok.1 h
  obtain ⟨task, htask, hrest⟩ := bind_eq_ok.1 hrest
  split_ifs at hrest with hclaimed
  · obtain ⟨lease', -, hrest⟩ := bind_eq_ok.1 hrest
    obtain ⟨task', htask', hrest⟩ := bind_eq_ok.1 hrest
    obtain ⟨-, rfl⟩ := transitionTask_eq_ok.1 htask'
    obtain rfl := Except.ok.inj hrest
    obtain ⟨hrow, hid⟩ := getTaskForLease_eq_ok htask
    rw [← hid] at hrow
    have hlease' : MissionStep task.missionId s (s.saveLease lease') := .other rfl rfl
    let started := (task.withStatus .running).withMetadata
      (Fields.set task.metadata "runtime_evidence_contract_version" (.str "1"))
    have hsaved : MissionStep task.missionId (s.saveLease lease')
        ((s.saveLease lease').saveTask started) := .task hrow rfl rfl ⟨rfl, rfl⟩
    refine worked_of_open hrow ?_ ((ReflTransGen.single hlease').tail hsaved)
      (fun _ h => h) ⟨started, ?_, rfl⟩
    · rw [hclaimed]
      rfl
    · exact mem_listForMission (saveTask_row (s := s.saveLease lease') started hrow rfl) rfl
  · obtain rfl := Except.ok.inj hrest
    exact .refl _

theorem complete_worked {taskOutput : Option Fields} {outputReason : Option String}
    {runtimeMetadata : Option Fields}
    (h : complete env amb s tenantId leaseId workerId taskOutput outputReason runtimeMetadata =
      .ok s') : Worked env s s' := by
  obtain ⟨lease, hlease, hrest⟩ := bind_eq_ok.1 h
  obtain ⟨task, htask, hrest⟩ := bind_eq_ok.1 hrest
  obtain ⟨hrow, hid⟩ := getTaskForLease_eq_ok htask
  rw [← hid] at hrow
  dsimp only at hrest
  split_ifs at hrest with hrunning hcancel
  · rw [not_not] at hrunning
    exact absurd hrest (completeCancelRequested_ne_ok hrunning)
  · rw [not_not] at hrunning
    obtain ⟨-, -, hrest⟩ := bind_eq_ok.1 hrest
    obtain ⟨task₁, htask₁, hrest⟩ := bind_eq_ok.1 hrest
    obtain ⟨-, rfl⟩ := transitionTask_eq_ok.1 htask₁
    obtain ⟨lease', -, hrest⟩ := bind_eq_ok.1 hrest
    obtain ⟨⟨s₂, task'⟩, houtput, hrest⟩ := bind_eq_ok.1 hrest
    obtain ⟨htasks, hmissions, hsame⟩ := recordOutput_columns houtput
    have hout : MissionStep task.missionId s s₂ := .other htasks hmissions
    have hrow₂ : s₂.db.tasks.get task.id = some task := by
      rw [htasks]
      exact hrow
    have hcolumns : task'.missionId = task.missionId ∧ task'.tenantId = task.tenantId :=
      ⟨hsame.2.1, hsame.2.2⟩
    have hsaved : MissionStep task.missionId s₂ (s₂.saveTask task') :=
      .task hrow₂ rfl hsame.1 hcolumns
    obtain ⟨hrefresh, hkept⟩ := refreshDeliverableReadModel_kept env amb (s₂.saveTask task') task'
    rw [hcolumns.1] at hrefresh hkept
    refine worked_of_rollup hrow ?_ (((ReflTransGen.single hout).tail hsaved).trans hrefresh)
      (fun tenantId hunder => hkept tenantId ?_) hcolumns hrest
    · rw [hrunning]
      rfl
    · rw [Underway] at hunder ⊢
      rw [show (s₂.saveTask task').db.missions = s.db.missions from hmissions]
      exact hunder

theorem fail_worked {reason evidenceId : String}
    (h : fail env amb s tenantId leaseId workerId reason evidenceId = .ok s') :
    Worked env s s' := by
  obtain ⟨lease, hlease, hrest⟩ := bind_eq_ok.1 h
  obtain ⟨task, htask, hrest⟩ := bind_eq_ok.1 hrest
  obtain ⟨hrow, hid⟩ := getTaskForLease_eq_ok htask
  rw [← hid] at hrow
  split_ifs at hrest with haccepted
  obtain ⟨task', htask', hrest⟩ := bind_eq_ok.1 hrest
  obtain ⟨hallowed, rfl⟩ := transitionTask_eq_ok.1 htask'
  have hopen : task.status.terminal = false := by
    cases hs : task.status <;>
      simp [hs, taskAllowed, ExecutionTaskState.terminal] at hallowed haccepted ⊢
  obtain ⟨lease', -, hrest⟩ := bind_eq_ok.1 hrest
  let failed := (task.withStatus .failed).withMetadata
    (Fields.set task.metadata "failure" (handlerFailure amb.now reason))
  let record := failureEvidenceRecord failed lease workerId reason evidenceId
  let saved := (s.saveTask failed).saveLease lease'
  let recorded : Session :=
    { saved with db := { saved.db with evidence := saved.db.evidence ++ [record] } }
  have hsaved : MissionStep task.missionId s (s.saveTask failed) :=
    .task hrow rfl rfl ⟨rfl, rfl⟩
  have hrecorded : MissionStep task.missionId (s.saveTask failed) recorded := .other rfl rfl
  obtain ⟨hrefresh, hkept⟩ := refreshDeliverableReadModel_kept env amb recorded failed
  have hrollup : maybeRollupMissionStatus env amb env.recursionLimit
      (refreshDeliverableReadModel env amb recorded failed) failed = .ok s' := hrest
  have hcolumns : failed.missionId = task.missionId ∧ failed.tenantId = task.tenantId := ⟨rfl, rfl⟩
  exact worked_of_rollup hrow hopen (((ReflTransGen.single hsaved).tail hrecorded).trans hrefresh)
    (fun tenantId hunder => hkept tenantId hunder) hcolumns hrollup

/-- The mission a claim reads. -/
theorem loadMission_kept (s : Session) (now missionId tenant : String) :
    let s₀ := ((getMissionForTenant s now missionId tenant).map Prod.fst).getD s
    ReflTransGen (MissionStep missionId) s s₀ ∧ s₀.db.tasks = s.db.tasks ∧
      ∀ tenantId, Underway tenantId missionId s.db → Underway tenantId missionId s₀.db := by
  cases hload : getMissionForTenant s now missionId tenant with
  | none => exact ⟨.refl, rfl, fun _ h => h⟩
  | some loaded =>
    obtain ⟨s₁, mission⟩ := loaded
    refine ⟨.single (getMissionForTenant_missionStep hload), ?_, fun tenantId hunder => ?_⟩
    · obtain ⟨_, _, _, _, _, rfl⟩ := getMissionForTenant_eq_some hload
      rfl
    · exact ⟨mission, underway_getMission hload hunder⟩

/-- A claim writes the task as claimed, beside a new lease. -/
theorem takeLease_worked {task task' : ExecutionTask} {lease : WorkerLease}
    (hget : s.db.tasks.get task.id = some task)
    (h : takeLease s task tenantId workerId leaseId = .ok (s', task', lease)) :
    ReflTransGen (MissionStep task.missionId) s s' ∧ s'.db.missions = s.db.missions ∧
      s'.db.tasks.get task.id = some task' ∧ task'.id = task.id ∧ task'.status = .claimed ∧
      task'.missionId = task.missionId ∧ task'.tenantId = task.tenantId := by
  obtain ⟨-, -, hrest⟩ := bind_eq_ok.1 h
  obtain ⟨claimed, hclaimed, hrest⟩ := bind_eq_ok.1 hrest
  obtain ⟨-, rfl⟩ := transitionTask_eq_ok.1 hclaimed
  obtain ⟨s₁, hadd, hrest⟩ := bind_eq_ok.1 hrest
  obtain ⟨rfl, hpair⟩ := Prod.mk.inj (Except.ok.inj hrest)
  obtain ⟨rfl, -⟩ := Prod.mk.inj hpair
  obtain ⟨htasks, hmissions⟩ := addLease_untouched hadd
  have hget₁ : s₁.db.tasks.get task.id = some task := by
    rw [htasks]
    exact hget
  have hadded : MissionStep task.missionId s s₁ := .other htasks hmissions
  refine ⟨(ReflTransGen.single hadded).tail (.task hget₁ rfl rfl ⟨rfl, rfl⟩), hmissions, ?_,
    rfl, rfl, rfl, rfl⟩
  exact saveTask_row _ hget₁ rfl

/-- A deferral gives the claimed task back as queued. -/
theorem deferForDependencies_worked {task : ExecutionTask} {lease : WorkerLease}
    {pending : List String} (hget : s.db.tasks.get task.id = some task)
    (h : deferForDependencies amb s task lease pending = .ok s') :
    ReflTransGen (MissionStep task.missionId) s s' ∧ s'.db.missions = s.db.missions ∧
      ∃ task', s'.db.tasks.get task.id = some task' ∧ task'.status = .queued ∧
        task'.missionId = task.missionId := by
  obtain ⟨lease', -, hrest⟩ := bind_eq_ok.1 h
  obtain ⟨task', htask', hrest⟩ := bind_eq_ok.1 hrest
  obtain ⟨-, rfl⟩ := transitionTask_eq_ok.1 htask'
  obtain rfl := Except.ok.inj hrest
  have hsaved : MissionStep task.missionId s (s.saveLease lease') := .other rfl rfl
  have hget₁ : (s.saveLease lease').db.tasks.get task.id = some task := hget
  refine ⟨(ReflTransGen.single hsaved).tail (.task hget₁ rfl rfl ⟨rfl, rfl⟩), rfl, ?_⟩
  exact ⟨_, saveTask_row _ hget₁ rfl, rfl, rfl⟩

theorem claimTask_worked {taskId : String} {outcome : ClaimOutcome}
    (h : claimTask env amb s (fun _ => false) tenantId taskId workerId leaseId =
      .ok (s', outcome)) : Worked env s s' := by
  unfold claimTask at h
  split at h
  · obtain ⟨rfl, -⟩ := Prod.mk.inj (Except.ok.inj h)
    exact .refl _
  next task hget =>
    obtain rfl := Rows.key_of_get hget
    split_ifs at h with htenant hterminal
    · obtain ⟨rfl, -⟩ := Prod.mk.inj (Except.ok.inj h)
      exact .refl _
    · obtain ⟨rfl, -⟩ := Prod.mk.inj (Except.ok.inj h)
      exact .refl _
    · have hplanned : ((getMissionForTenant s amb.now task.missionId tenantId).map
          fun _ => false).getD false = false := by
        cases getMissionForTenant s amb.now task.missionId tenantId <;> rfl
      dsimp only at h
      rw [hplanned, if_neg (by simp)] at h
      obtain ⟨hloaded, htasks, hunder⟩ := loadMission_kept s amb.now task.missionId tenantId
      set s₀ := ((getMissionForTenant s amb.now task.missionId tenantId).map Prod.fst).getD s
      have hget₀ : s₀.db.tasks.get task.id = some task := by
        rw [htasks]
        exact hget
      obtain ⟨⟨s₁, claimed, lease⟩, htake, hrest⟩ := bind_eq_ok.1 h
      obtain ⟨htaken, hmissions, hget₁, hid, hclaimed, hmission, -⟩ := takeLease_worked hget₀ htake
      have hopen : task.status.terminal = false := Bool.eq_false_iff.2 hterminal
      have hunder₁ : ∀ tenantId, Underway tenantId task.missionId s.db →
          Underway tenantId task.missionId s₁.db := by
        intro t ht
        rw [Underway, hmissions]
        exact hunder t ht
      dsimp only at hrest
      split_ifs at hrest
      · obtain ⟨rfl, -⟩ := Prod.mk.inj (Except.ok.inj hrest)
        refine worked_of_open hget hopen (hloaded.trans htaken) hunder₁
          ⟨claimed, mem_listForMission hget₁ hmission, ?_⟩
        rw [hclaimed]
        rfl
      · obtain ⟨s₂, hdefer, hrest⟩ := bind_eq_ok.1 hrest
        obtain ⟨rfl, -⟩ := Prod.mk.inj (Except.ok.inj hrest)
        rw [← hid] at hget₁
        obtain ⟨hdeferred, hmissions₂, queued, hget₂, hqueued, hmission₂⟩ :=
          deferForDependencies_worked hget₁ hdefer
        rw [hmission] at hdeferred hmission₂
        refine worked_of_open hget hopen ((hloaded.trans htaken).trans hdeferred) (fun t ht => ?_)
          ⟨queued, mem_listForMission hget₂ hmission₂, ?_⟩
        · rw [Underway, hmissions₂]
          exact hunder₁ t ht
        · rw [hqueued]
          rfl

end Transactions

end Ajenda.Runtime
