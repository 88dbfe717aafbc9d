import Ajenda.RollupPasses

/-!
# Whether a rollup ends

A rollup calls itself as long as a call blocks a task. It ends unless the graph is torn: a
dependent is re-admitted because the last task filed under each of its keys is completed, and
blocked because another task filed under one of them has failed for good.
-/
namespace Ajenda.Runtime
open JsonValue KeyedRows Relation FailurePropagation

/-- After finitely many calls one does not call itself again. The interpreter's stack, two frames
for a level of dependents, is not counted. -/
inductive RollupEnds (env : Env) (amb : Ambient) (task : ExecutionTask) : Session → Prop
  | last {s : Session} (h : ∀ s', rollupCall env amb s task ≠ .ok (s', true)) :
      RollupEnds env amb task s
  | again {s s' : Session} (h : rollupCall env amb s task = .ok (s', true))
      (hrest : RollupEnds env amb task s') : RollupEnds env amb task s

/-- One call on `s` is followed by a call on `s'`. -/
def Again (env : Env) (amb : Ambient) (task : ExecutionTask) (s s' : Session) : Prop :=
  rollupCall env amb s task = .ok (s', true)

/-- A call on the session re-admits the blocked task. -/
def Recovers (env : Env) (task : ExecutionTask) (s : Session) (taskId : String) : Prop :=
  Underway task.tenantId task.missionId s.db ∧
    ∃ t ∈ s.db.listForMission task.missionId, t.id = taskId ∧
      recoverable env (s.db.listForMission task.missionId) t = true

/-- A call on the session blocks the task. -/
def Blocks (env : Env) (amb : Ambient) (task : ExecutionTask) (s : Session) (taskId : String) :
    Prop :=
  Underway task.tenantId task.missionId s.db ∧
    ∃ t ∈ readmitPass env amb.now (s.db.listForMission task.missionId), t.id = taskId ∧
      blockable env (failedNodeKeys (readmitPass env amb.now
        (s.db.listForMission task.missionId))) t = true

/-- Some task is moved both ways by the calls of one rollup. -/
def BackAndForth (env : Env) (amb : Ambient) (task : ExecutionTask) (s : Session) : Prop :=
  ∃ taskId s₁ s₂, ReflTransGen (Again env amb task) s s₁ ∧
    ReflTransGen (Again env amb task) s s₂ ∧ Recovers env task s₁ taskId ∧
    Blocks env amb task s₂ taskId

section Ends
variable {env : Env} {amb : Ambient} {s s' : Session} {task : ExecutionTask}
  {origin : List ExecutionTask}

/-- A rollup that does not end exhausts any recursion limit. -/
theorem recursion_of_not_ends (h : ¬RollupEnds env amb task s) (fuel : ℕ) :
    maybeRollupMissionStatus env amb fuel s task = .error .recursion := by
  induction fuel generalizing s with
  | zero => rfl
  | succ fuel ih =>
    have hagain : ∃ s', rollupCall env amb s task = .ok (s', true) := by
      by_contra hnone
      push Not at hnone
      exact h (.last hnone)
    obtain ⟨s', hcall⟩ := hagain
    have hrest : ¬RollupEnds env amb task s' := fun hends => h (.again hcall hends)
    rw [maybeRollupMissionStatus_succ, hcall]
    exact ih hrest

/-- With enough recursion a rollup that ends gives one result. -/
theorem RollupEnds.result (h : RollupEnds env amb task s) : ∃ n, ∀ k,
    maybeRollupMissionStatus env amb (n + k) s task = maybeRollupMissionStatus env amb n s task := by
  induction h with
  | @last s hlast =>
    refine ⟨1, fun k => ?_⟩
    rw [Nat.add_comm, maybeRollupMissionStatus_succ, maybeRollupMissionStatus_succ]
    cases hcall : rollupCall env amb s task with
    | error e => rfl
    | ok result =>
      obtain ⟨s', again⟩ := result
      cases again with
      | false => rfl
      | true => exact absurd hcall (hlast s')
  | again hcall _ ih =>
    obtain ⟨n, hn⟩ := ih
    refine ⟨n + 1, fun k => ?_⟩
    rw [Nat.add_right_comm, maybeRollupMissionStatus_succ, maybeRollupMissionStatus_succ, hcall]
    exact hn k

/-! ## Calls are passes -/

/-- The siblings of a session as nodes of the graph of the first session's siblings. -/
def nodesOf (env : Env) (origin : List ExecutionTask) (task : ExecutionTask) (s : Session) :
    List (Node String String) :=
  (s.db.listForMission task.missionId).map (nodeOf env origin)

variable (env amb) in
theorem nodesOf_readmit (hsame : List.Forall₂ SameNode origin
    (s.db.listForMission task.missionId)) :
    (readmitPass env amb.now (s.db.listForMission task.missionId)).map (nodeOf env origin) =
      admitted (nodesOf env origin task s) :=
  nodeOf_readmitPass hsame

/-- A task that a call could block is an impossible node. -/
theorem impossible_of_blockable (hsame : List.Forall₂ SameNode origin
      (s.db.listForMission task.missionId)) {t : ExecutionTask}
    (h : blockable env (failedNodeKeys (readmitPass env amb.now
      (s.db.listForMission task.missionId))) t = true) :
    Impossible (admitted (nodesOf env origin task s)) (nodeOf env origin t) := by
  rw [← nodesOf_readmit env amb hsame]
  exact impossible_iff.2 h

/-- One call after another is one pass after another. -/
theorem again_pass (hunder : Underway task.tenantId task.missionId s.db)
    (hsame : List.Forall₂ SameNode origin (s.db.listForMission task.missionId))
    (h : Again env amb task s s') : Underway task.tenantId task.missionId s'.db ∧
      List.Forall₂ SameNode origin (s'.db.listForMission task.missionId) ∧
      nodesOf env origin task s' = pass (nodesOf env origin task s) ∧
      ∃ n ∈ admitted (nodesOf env origin task s),
        Impossible (admitted (nodesOf env origin task s)) n := by
  obtain ⟨-, ⟨t, ht, hblockable⟩, hlist, hunder'⟩ | ⟨habsurd, -⟩ := rollupCall_pass hunder h
  · have hreadmit := nodesOf_readmit env amb hsame
    refine ⟨hunder', ?_, ?_, nodeOf env origin t, ?_, impossible_of_blockable hsame hblockable⟩
    · rw [hlist]
      exact sameNodes_trans hsame (sameNodes_trans readmitPass_same blockPass_same)
    · rw [nodesOf, hlist, nodeOf_blockPass, hreadmit, FailurePropagation.pass]
    · rw [← hreadmit]
      exact List.mem_map_of_mem ht
  · cases habsurd

theorem again_passes (hunder : Underway task.tenantId task.missionId s.db)
    (hsame : List.Forall₂ SameNode origin (s.db.listForMission task.missionId))
    (h : ReflTransGen (Again env amb task) s s') :
    List.Forall₂ SameNode origin (s'.db.listForMission task.missionId) ∧
      ∃ k, nodesOf env origin task s' = pass^[k] (nodesOf env origin task s) := by
  have hrun : Underway task.tenantId task.missionId s'.db ∧
      List.Forall₂ SameNode origin (s'.db.listForMission task.missionId) ∧
      ∃ k, nodesOf env origin task s' = pass^[k] (nodesOf env origin task s) := by
    induction h with
    | refl => exact ⟨hunder, hsame, 0, rfl⟩
    | tail _ hcall ih =>
      obtain ⟨hunder₁, hsame₁, k, hk⟩ := ih
      obtain ⟨hunder₂, hsame₂, hpass, -⟩ := again_pass hunder₁ hsame₁ hcall
      exact ⟨hunder₂, hsame₂, k + 1, by rw [hpass, hk, Function.iterate_succ_apply']⟩
  exact hrun.2

/-- The passes of a rollup that returns settle. -/
theorem settlesTo_of_rollup {fuel : ℕ} (hunder : Underway task.tenantId task.missionId s.db)
    (hsame : List.Forall₂ SameNode origin (s.db.listForMission task.missionId))
    (h : maybeRollupMissionStatus env amb fuel s task = .ok s') :
    SettlesTo (nodesOf env origin task s) (nodesOf env origin task s') := by
  induction fuel generalizing s with
  | zero => cases h
  | succ fuel ih =>
    rw [maybeRollupMissionStatus_succ] at h
    obtain ⟨⟨s₁, again⟩, hcall, hrest⟩ := bind_eq_ok.1 h
    cases again with
    | true =>
      obtain ⟨hunder₁, hsame₁, hpass, hsome⟩ := again_pass hunder hsame hcall
      refine .again hsome ?_
      rw [← hpass]
      exact ih hunder₁ hsame₁ hrest
    | false =>
      obtain rfl := Except.ok.inj hrest
      obtain ⟨habsurd, -⟩ | ⟨-, hnone, hlist⟩ := rollupCall_pass hunder hcall
      · cases habsurd
      · have hreadmit := nodesOf_readmit env amb hsame
        have hlast : nodesOf env origin task s₁ = admitted (nodesOf env origin task s) := by
          rw [nodesOf, hlist, hreadmit]
        rw [hlast]
        refine .last fun n hn himpossible => ?_
        rw [← hreadmit, List.mem_map] at hn
        obtain ⟨t, ht, rfl⟩ := hn
        rw [← hreadmit, impossible_iff, hnone t ht] at himpossible
        cases himpossible

/-- Passes that settle are those of a rollup that ends. -/
theorem ends_of_settlesTo {nodes nodes' : List (Node String String)} (h : SettlesTo nodes nodes')
    (hunder : Underway task.tenantId task.missionId s.db)
    (hsame : List.Forall₂ SameNode origin (s.db.listForMission task.missionId))
    (hnodes : nodesOf env origin task s = nodes) : RollupEnds env amb task s := by
  induction h generalizing s with
  | last hnone =>
    refine .last fun s' hcall => ?_
    obtain ⟨-, -, -, n, hn, himpossible⟩ := again_pass hunder hsame hcall
    rw [hnodes] at hn himpossible
    exact hnone n hn himpossible
  | again _ _ ih =>
    by_cases hagain : ∃ s', rollupCall env amb s task = .ok (s', true)
    · obtain ⟨s', hcall⟩ := hagain
      obtain ⟨hunder', hsame', hpass, -⟩ := again_pass hunder hsame hcall
      exact .again hcall (ih hunder' hsame' (by rw [hpass, hnodes]))
    · push Not at hagain
      exact .last hagain

end Ends

/-! ## Re-admission that does not fail -/

/-- The task's dispatch is there and can be delivered again. -/
def Redelivers (s : Session) (tenantId taskId : String) : Prop :=
  ∃ d generation, s.db.dispatchForTask tenantId taskId = some d ∧
    retryGeneration d.payload = .ok generation

/-- Every task of the mission can be delivered again. -/
def MissionRedelivers (s : Session) (missionId : String) : Prop :=
  ∀ k ∈ s.db.taskKeys, k.2.1 = missionId → Redelivers s k.2.2 k.1

section Redelivery
variable {env : Env} {amb : Ambient} {s s' : Session} {task : ExecutionTask} {missionId : String}

/-- A dispatch of the same task, with a retry generation where there was one. -/
structure SameDispatch (d d' : RuntimeQueueDispatch) : Prop where
  tenantId : d'.tenantId = d.tenantId
  taskId : d'.taskId = d.taskId
  generation : (∃ g, retryGeneration d.payload = .ok g) → ∃ g, retryGeneration d'.payload = .ok g

theorem SameDispatch.refl (d : RuntimeQueueDispatch) : SameDispatch d d := ⟨rfl, rfl, id⟩

theorem redelivers_of_related (h : Rows.Related SameDispatch s.db.dispatches s'.db.dispatches)
    {tenantId taskId : String} (hs : Redelivers s tenantId taskId) :
    Redelivers s' tenantId taskId := by
  obtain ⟨d, generation, hd, hgeneration⟩ := hs
  have hrel : Option.Rel SameDispatch (s.db.dispatchForTask tenantId taskId)
      (s'.db.dispatchForTask tenantId taskId) :=
    Rows.forall₂_find? (fun a b hab => by rw [hab.tenantId, hab.taskId]) h
  rw [hd] at hrel
  generalize hd' : s'.db.dispatchForTask tenantId taskId = found at hrel
  cases hrel with
  | some hsame =>
    obtain ⟨g, hg⟩ := hsame.generation ⟨generation, hgeneration⟩
    exact ⟨_, g, hd', hg⟩

variable (amb) in
theorem retry_succeeds (h : Redelivers s task.tenantId task.id) :
    ∃ s', retry amb s task = .ok s' ∧
      Rows.Related SameDispatch s.db.dispatches s'.db.dispatches := by
  obtain ⟨d, generation, hd, hgeneration⟩ := h
  have hrow : s.db.dispatches.get d.id = some d := Rows.get_of_mem (List.mem_of_find?_eq_some hd)
  simp only [retry, hd, hgeneration, bind, Except.bind, pure, Except.pure]
  refine ⟨_, rfl, ?_⟩
  rw [scheduleAfterCommit_db]
  exact Rows.related_set SameDispatch.refl hrow rfl
    ⟨rfl, rfl, fun _ => ⟨generation + 1, retryGeneration_set _ _⟩⟩

variable (amb) in
theorem foldlM_readmit_succeeds (f : ExecutionTask → ExecutionTask) (l : List ExecutionTask)
    (hid : ∀ t, (f t).id = t.id)
    (hcolumns : ∀ t, (f t).missionId = t.missionId ∧ (f t).tenantId = t.tenantId)
    (h : ∀ t ∈ l, Redelivers s t.tenantId t.id) :
    ∃ s', l.foldlM (readmitTask amb f) s = .ok s' ∧
      ∀ tenantId taskId, Redelivers s tenantId taskId → Redelivers s' tenantId taskId := by
  induction l generalizing s with
  | nil => exact ⟨s, rfl, fun _ _ h => h⟩
  | cons t l ih =>
    have ht : Redelivers (s.saveTask (f t)) (f t).tenantId (f t).id := by
      rw [hid, (hcolumns t).2]
      exact h t (by simp)
    obtain ⟨s₁, hretry, hrelated⟩ := retry_succeeds amb ht
    have hkeeps : ∀ tenantId taskId, Redelivers s tenantId taskId → Redelivers s₁ tenantId taskId :=
      fun tenantId taskId hs => redelivers_of_related hrelated hs
    obtain ⟨s', hrest, hkeeps'⟩ := ih fun u hu => hkeeps _ _ (h u (by simp [hu]))
    refine ⟨s', ?_, fun tenantId taskId hs => hkeeps' _ _ (hkeeps _ _ hs)⟩
    exact bind_eq_ok.2 ⟨s₁, hretry, hrest⟩

theorem redelivers_of_mem (h : MissionRedelivers s missionId) {t : ExecutionTask}
    (ht : t ∈ s.db.listForMission missionId) : Redelivers s t.tenantId t.id := by
  refine h (t.id, t.missionId, t.tenantId) (List.mem_map_of_mem (List.mem_of_mem_filter ht)) ?_
  exact missionId_of_mem ht

theorem MissionRedelivers.keeps (h : MissionRedelivers s missionId)
    (hkeys : s'.db.taskKeys = s.db.taskKeys)
    (hkeeps : ∀ tenantId taskId, Redelivers s tenantId taskId → Redelivers s' tenantId taskId) :
    MissionRedelivers s' missionId := by
  intro k hk hmission
  rw [hkeys] at hk
  exact hkeeps _ _ (h k hk hmission)

variable (env amb) in
theorem readmitDependents_succeeds (h : MissionRedelivers s missionId) :
    ∃ s', readmitDependents env amb s missionId = .ok s' ∧ MissionRedelivers s' missionId := by
  obtain ⟨s₁, hrecover, hkeeps₁⟩ := foldlM_readmit_succeeds amb (recoverDependent env amb.now)
    ((s.db.listForMission missionId).filter (recoverable env (s.db.listForMission missionId)))
    (fun _ => rfl) (fun _ => ⟨rfl, rfl⟩)
    fun t ht => redelivers_of_mem h (List.mem_of_mem_filter ht)
  have hkeys₁ := missionSteps_taskKeys (readmit_missionSteps (f := recoverDependent env amb.now)
    (fun _ => rfl) (fun _ => ⟨rfl, rfl⟩) hrecover).1
  have h₁ := h.keeps hkeys₁ hkeeps₁
  obtain ⟨s', hredispatch, hkeeps⟩ := foldlM_readmit_succeeds amb (redispatchDependent amb.now)
    ((s₁.db.listForMission missionId).filter
      (redispatchable env (s₁.db.listForMission missionId)))
    (fun _ => rfl) (fun _ => ⟨rfl, rfl⟩)
    fun t ht => redelivers_of_mem h₁ (List.mem_of_mem_filter ht)
  have hrun : readmitDependents env amb s missionId = .ok s' :=
    bind_eq_ok.2 ⟨s₁, hrecover, hredispatch⟩
  refine ⟨s', hrun, h.keeps (missionSteps_taskKeys (readmitDependents_missionSteps hrun).1) ?_⟩
  exact fun tenantId taskId hs => hkeeps _ _ (hkeeps₁ _ _ hs)

theorem foldl_saveTask_dispatches (g : ExecutionTask → ExecutionTask) (l : List ExecutionTask)
    (s : Session) :
    (l.foldl (fun s t => s.saveTask (g t)) s).db.dispatches = s.db.dispatches := by
  induction l generalizing s with
  | nil => rfl
  | cons t l ih => exact ih (s.saveTask (g t))

/-- A call that can re-admit and finds an impossible task starts over. -/
theorem rollupCall_again (hunder : Underway task.tenantId task.missionId s.db)
    (hredelivers : MissionRedelivers s task.missionId)
    (hsome : ∃ t ∈ readmitPass env amb.now (s.db.listForMission task.missionId),
      blockable env (failedNodeKeys (readmitPass env amb.now
        (s.db.listForMission task.missionId))) t = true) :
    ∃ s', Again env amb task s s' ∧ MissionRedelivers s' task.missionId := by
  obtain ⟨mission, hrow, htenant, hopen⟩ := hunder
  obtain ⟨t, ht, hblockable⟩ := hsome
  unfold Again rollupCall
  rw [getMissionForTenant_of_row hrow htenant]
  dsimp only
  set held := reconcileReviewHold s.db amb.now mission
  have hheldOpen : held.status.terminal = false := reconcileReviewHold_open hopen
  have hheld : MissionRedelivers (s.saveMission held) task.missionId := hredelivers
  obtain ⟨s₂, hreadmission, hredelivers₂⟩ := readmitDependents_succeeds env amb hheld
  have hpass : s₂.db.listForMission task.missionId =
      readmitPass env amb.now (s.db.listForMission task.missionId) := by
    rw [listForMission_readmitDependents hreadmission]
    rfl
  have hsome : ¬((s.saveMission held).db.listForMission task.missionId).isEmpty = true := by
    rw [show (s.saveMission held).db.listForMission task.missionId =
      s.db.listForMission task.missionId from rfl, List.isEmpty_iff]
    intro hnil
    simp [hnil, readmitPass, recoverPass, redispatchPass] at ht
  have hfound : ¬((s₂.db.listForMission task.missionId).filter (blockable env
      (failedNodeKeys (s₂.db.listForMission task.missionId)))).isEmpty = true := by
    rw [List.isEmpty_iff, List.filter_eq_nil_iff, hpass]
    exact fun hnone => hnone t ht hblockable
  rw [if_neg (by simp [hheldOpen]), if_neg hsome, hreadmission]
  simp only [bind, Except.bind, if_neg hfound]
  refine ⟨_, rfl, hredelivers₂.keeps
    (missionSteps_taskKeys (blockDependents_missionSteps env s₂ _ _ _).1) ?_⟩
  rintro tenantId taskId ⟨d, generation, hd, hgeneration⟩
  refine ⟨d, generation, ?_, hgeneration⟩
  rw [Db.dispatchForTask, foldl_saveTask_dispatches]
  exact hd

/-- A rollup that ends on a mission whose tasks can be delivered again finds no torn graph. -/
theorem RollupEnds.not_torn (h : RollupEnds env amb task s) {origin : List ExecutionTask}
    (hunder : Underway task.tenantId task.missionId s.db)
    (hsame : List.Forall₂ SameNode origin (s.db.listForMission task.missionId))
    (hredelivers : MissionRedelivers s task.missionId) : ¬Torn (nodesOf env origin task s) := by
  intro htorn
  have hstarts : ∀ {s : Session}, Underway task.tenantId task.missionId s.db →
      List.Forall₂ SameNode origin (s.db.listForMission task.missionId) →
      MissionRedelivers s task.missionId → Torn (nodesOf env origin task s) →
      ∃ s', Again env amb task s s' ∧ MissionRedelivers s' task.missionId := by
    intro s hunder hsame hredelivers htorn
    obtain ⟨n, hn, himpossible⟩ := htorn.impossible
    rw [← nodesOf_readmit env amb hsame] at hn himpossible
    obtain ⟨t, ht, rfl⟩ := List.mem_map.1 hn
    exact rollupCall_again hunder hredelivers ⟨t, ht, impossible_iff.1 himpossible⟩
  induction h with
  | last hlast =>
    obtain ⟨s', hcall, -⟩ := hstarts hunder hsame hredelivers htorn
    exact hlast s' hcall
  | again hcall _ ih =>
    obtain ⟨s'', hcall', hredelivers'⟩ := hstarts hunder hsame hredelivers htorn
    obtain rfl : _ = s'' := (Prod.mk.inj (Except.ok.inj (hcall.symm.trans hcall'))).1
    obtain ⟨hunder', hsame', hpass, -⟩ := again_pass hunder hsame hcall
    exact ih hunder' hsame' hredelivers' (by rwa [hpass, torn_pass])

end Redelivery

/-! ## The rollup of a mission -/

/-- Some dependent is re-admitted for its completed dependencies and stands above a key that
has failed for good. -/
def TornGraph (env : Env) (siblings : List ExecutionTask) : Prop :=
  Torn (siblings.map (nodeOf env siblings))

/-- The rollup of these tasks ends and moves no task back and forth, whichever task of the
mission finished and whatever else is stored. -/
def RollupSettles (env : Env) (mission : Mission) (siblings : List ExecutionTask) : Prop :=
  ∀ (amb : Ambient) (s : Session) (task : ExecutionTask),
    s.db.missions.get mission.id = some mission → s.db.listForMission mission.id = siblings →
    task.missionId = mission.id → task.tenantId = mission.tenantId →
    RollupEnds env amb task s ∧ ¬BackAndForth env amb task s

section Mission
variable {env : Env} {mission : Mission} {siblings : List ExecutionTask}

/-- A published dispatch of the task. -/
def dispatchOf (t : ExecutionTask) : RuntimeQueueDispatch where
  id := t.id
  tenantId := t.tenantId
  taskId := t.id
  missionId := t.missionId
  fleetId := t.fleetId
  branchId := t.branchId
  payload := []
  status := .published
  published := true
  cleaned := false
  createdAt := ""

/-- A store with the mission, its tasks and a published dispatch for each. -/
def publishedSession (mission : Mission) (siblings : List ExecutionTask)
    (hids : (siblings.map ExecutionTask.id).Nodup) : Session where
  db :=
    { missions := ⟨[mission], List.nodup_singleton _⟩
      tasks := ⟨siblings, hids⟩
      leases := .empty
      dispatches := ⟨siblings.map dispatchOf, by rw [List.map_map]; exact hids⟩
      evidence := []
      lineage := [] }
  intents := []

theorem publishedSession_redelivers (hids : (siblings.map ExecutionTask.id).Nodup) :
    MissionRedelivers (publishedSession mission siblings hids) mission.id := by
  intro k hk _
  obtain ⟨t, ht, rfl⟩ := List.mem_map.1 hk
  obtain ⟨d, hd⟩ : ∃ d, (publishedSession mission siblings hids).db.dispatchForTask t.tenantId
      t.id = some d := by
    rw [← Option.isSome_iff_exists, Db.dispatchForTask, List.find?_isSome]
    exact ⟨dispatchOf t, List.mem_map_of_mem ht, by simp [dispatchOf]⟩
  obtain ⟨u, -, rfl⟩ := List.mem_map.1 (List.mem_of_find?_eq_some hd)
  exact ⟨_, 0, hd, rfl⟩

theorem not_back_of_not_torn (hids : (siblings.map ExecutionTask.id).Nodup) {amb : Ambient}
    {s : Session} {task : ExecutionTask} (hunder : Underway task.tenantId task.missionId s.db)
    (hlist : s.db.listForMission task.missionId = siblings) (htorn : ¬TornGraph env siblings) :
    ¬BackAndForth env amb task s := by
  rintro ⟨taskId, s₁, s₂, hs₁, hs₂, ⟨-, t, ht, rfl, hrecoverable⟩, ⟨-, t', ht', hid, hblockable⟩⟩
  have hsame : List.Forall₂ SameNode siblings (s.db.listForMission task.missionId) := by
    rw [hlist]
    exact List.forall₂_same.2 fun u _ => .refl u
  obtain ⟨hsame₁, j, hj⟩ := again_passes hunder hsame hs₁
  obtain ⟨hsame₂, k, hk⟩ := again_passes hunder hsame hs₂
  have hnodes : nodesOf env siblings task s = siblings.map (nodeOf env siblings) := by
    rw [nodesOf, hlist]
  have himpossible := impossible_of_blockable hsame₂ hblockable
  have hmem' : nodeOf env siblings t' ∈ admitted (nodesOf env siblings task s₂) := by
    rw [← nodesOf_readmit env amb hsame₂]
    exact List.mem_map_of_mem ht'
  have hmem : nodeOf env siblings t ∈ nodesOf env siblings task s₁ := List.mem_map_of_mem ht
  rw [hk, hnodes] at himpossible hmem'
  rw [hj, hnodes] at hmem
  obtain ⟨hheld, hready⟩ := recoverable_iff.1 hrecoverable
  rw [dependenciesCompleted_same hsame₁ (.refl t)] at hready
  have hnodup : ((siblings.map (nodeOf env siblings)).map Node.id).Nodup := by
    rw [List.map_map]
    exact hids
  exact not_back htorn hnodup hmem hheld hready hmem' himpossible hid.symm

theorem rollupSettles_of_not_torn (hids : (siblings.map ExecutionTask.id).Nodup)
    (htorn : mission.status.terminal = true ∨ ¬TornGraph env siblings) :
    RollupSettles env mission siblings := by
  intro amb s task hrow hlist hmission htenant
  by_cases hunder : Underway task.tenantId task.missionId s.db
  · have hopen : ¬TornGraph env siblings := by
      rcases htorn with hterminal | htorn
      · obtain ⟨stored, hstored, -, hopen⟩ := hunder
        rw [hmission, hrow] at hstored
        obtain rfl := Option.some_inj.1 hstored
        rw [hterminal] at hopen
        cases hopen
      · exact htorn
    rw [← hmission] at hlist
    obtain ⟨nodes', hsettles⟩ := settles_of_not_torn hopen
    refine ⟨ends_of_settlesTo hsettles hunder ?_ (by rw [nodesOf, hlist]),
      not_back_of_not_torn hids hunder hlist hopen⟩
    rw [hlist]
    exact List.forall₂_same.2 fun u _ => .refl u
  · obtain ⟨s₀, hidle, -, -⟩ := rollupCall_idle env amb hunder
    have hlast : ∀ s', rollupCall env amb s task ≠ .ok (s', true) := by
      intro s' hcall
      rw [hidle] at hcall
      cases hcall
    refine ⟨.last hlast, ?_⟩
    rintro ⟨taskId, s₁, -, hs₁, -, ⟨hunder₁, -⟩, -⟩
    obtain rfl | ⟨s', hcall, -⟩ := hs₁.cases_head
    · exact hunder hunder₁
    · exact hlast s' hcall

/-- The rollup of a torn graph calls itself forever when every task can be delivered again. -/
theorem not_ends_of_torn (hids : (siblings.map ExecutionTask.id).Nodup)
    (hsiblings : ∀ t ∈ siblings, t.missionId = mission.id)
    (hopen : mission.status.terminal = false) (htorn : TornGraph env siblings) (amb : Ambient)
    {task : ExecutionTask} (hmission : task.missionId = mission.id)
    (htenant : task.tenantId = mission.tenantId) :
    ¬RollupEnds env amb task (publishedSession mission siblings hids) := by
  intro hends
  have hrow : (publishedSession mission siblings hids).db.missions.get task.missionId =
      some mission := by
    simp [publishedSession, Rows.get, Keyed.key, hmission]
  have hlist : (publishedSession mission siblings hids).db.listForMission task.missionId =
      siblings := by
    refine List.filter_eq_self.2 fun t ht => ?_
    simpa [hmission] using hsiblings t ht
  have hsame : List.Forall₂ SameNode siblings
      ((publishedSession mission siblings hids).db.listForMission task.missionId) := by
    rw [hlist]
    exact List.forall₂_same.2 fun u _ => .refl u
  have hredelivers : MissionRedelivers (publishedSession mission siblings hids) task.missionId := by
    rw [hmission]
    exact publishedSession_redelivers hids
  refine hends.not_torn ⟨mission, hrow, htenant.symm, hopen⟩ hsame hredelivers ?_
  rw [nodesOf, hlist]
  exact htorn

/-- A rollup settles if and only if its mission is closed or its graph is not torn. -/
theorem rollup_settles_iff (hids : (siblings.map ExecutionTask.id).Nodup)
    (hsiblings : ∀ t ∈ siblings, t.missionId = mission.id) :
    RollupSettles env mission siblings ↔
      mission.status.terminal = true ∨ ¬TornGraph env siblings := by
  refine ⟨fun h => ?_, rollupSettles_of_not_torn hids⟩
  by_contra hcondition
  rw [not_or, not_not, Bool.not_eq_true] at hcondition
  obtain ⟨hopen, htorn⟩ := hcondition
  let amb : Ambient := ⟨"", id⟩
  let task : ExecutionTask := ⟨"", mission.tenantId, mission.id, none, none, .completed, [], 0⟩
  have hmission : task.missionId = mission.id := rfl
  have htenant : task.tenantId = mission.tenantId := rfl
  refine not_ends_of_torn hids hsiblings hopen htorn amb hmission htenant ?_
  refine (h amb (publishedSession mission siblings hids) task ?_ ?_ rfl rfl).1
  · simp [publishedSession, Rows.get, Keyed.key]
  · exact List.filter_eq_self.2 fun t ht => by simpa using hsiblings t ht

end Mission

/-! ## A node key filed twice -/

def keyedTask (id key : String) (status : ExecutionTaskState) (deps : List String) :
    ExecutionTask where
  id := id
  tenantId := "tenant"
  missionId := "mission"
  fleetId := none
  branchId := none
  status := status
  metadata := [("graph_node_key", .str key), ("dependency_keys", .arr (deps.map .str))]
  retryCount := 0

def runningMission : Mission := ⟨"mission", "tenant", .running, []⟩

/-- A failed task, the task that replaced it and a task that depends on their key. -/
def rematerialised : List ExecutionTask :=
  [keyedTask "draft-1" "draft" .failed [], keyedTask "draft-2" "draft" .completed [],
    keyedTask "send" "send" .queued ["draft"]]

theorem rematerialised_torn : TornGraph Env.plain rematerialised := by
  have hready : dependenciesCompleted Env.plain rematerialised
      (keyedTask "send" "send" .queued ["draft"]) = true := by decide
  refine ⟨_, List.mem_map_of_mem (a := keyedTask "send" "send" .queued ["draft"])
    (by simp [rematerialised]), .inl rfl, hready, "draft", by simp [nodeOf, dependencyTexts,
      keyedTask, ExecutionTask.dependencyKeys, Fields.get, pyStr], ?_⟩
  exact .dead (List.mem_map_of_mem (a := keyedTask "draft-1" "draft" .failed [])
    (by simp [rematerialised])) (.inl rfl) rfl

/-- A failed task, the task that waits for it and a task that waits for that one. -/
def failedChain : List ExecutionTask :=
  [keyedTask "draft" "draft" .failed [], keyedTask "send" "send" .queued ["draft"],
    keyedTask "report" "report" .queued ["send"]]

theorem rollup_settles_iff_sample : RollupSettles Env.plain runningMission failedChain ↔
    runningMission.status.terminal = true ∨ ¬TornGraph Env.plain failedChain :=
  rollup_settles_iff (by decide) (by decide)

theorem rematerialised_rollup_recurses : ¬RollupSettles Env.plain runningMission rematerialised ∧
    ∀ fuel, maybeRollupMissionStatus Env.plain ⟨"now", id⟩ fuel
      (publishedSession runningMission rematerialised (by decide))
      (keyedTask "draft-2" "draft" .completed []) = .error .recursion := by
  have hends : ¬RollupEnds Env.plain ⟨"now", id⟩ (keyedTask "draft-2" "draft" .completed [])
      (publishedSession runningMission rematerialised (by decide)) :=
    not_ends_of_torn (by decide) (by decide) rfl rematerialised_torn _ rfl rfl
  refine ⟨fun h => hends (h _ _ _ (by decide) (by decide) rfl rfl).1, fun fuel => ?_⟩
  exact recursion_of_not_ends hends fuel

end Ajenda.Runtime
