import Ajenda.RollupRearming

/-!
# When a rollup returns

A rollup re-arms dispatches, calls itself and evaluates the acceptance of a finished graph. It
returns exactly when its graph is not torn, the ready dependents that wait can be re-armed, and a
task is left open or the acceptance can be evaluated.
-/
namespace Ajenda.Runtime
open JsonValue KeyedRows Relation FailurePropagation

/-- The rollup returns, given stack enough for its calls. -/
def RollupReturns (env : Env) (amb : Ambient) (task : ExecutionTask) (s s' : Session) : Prop :=
  ∃ n, ∀ k, maybeRollupMissionStatus env amb (n + k) s task = .ok s'

/-! ## What a rollup makes of a task -/

section Fates
variable (env : Env) (siblings : List ExecutionTask)

/-- The task is planned, queued or claimed, or blocked and ready to be re-admitted. -/
def OpenTask (t : ExecutionTask) : Prop := (nodeOf env siblings t).Open

/-- The task is open and one of its dependency keys has failed for good. -/
def DoomedTask (t : ExecutionTask) : Prop :=
  Doomed (siblings.map (nodeOf env siblings)) (nodeOf env siblings t)

/-- The task is open after the rollup. -/
def LeftOpen (t : ExecutionTask) : Prop :=
  OpenTask env siblings t ∧ ¬DoomedTask env siblings t ∨
    t.status.terminal = false ∧ t.status.movable = false

end Fates

/-- The task `t` and what a rollup of these siblings makes of it. -/
structure Becomes (env : Env) (siblings : List ExecutionTask) (t t' : ExecutionTask) : Prop where
  same : SameNode t t'
  node : nodeOf env siblings t' =
    outcome (siblings.map (nodeOf env siblings)) (nodeOf env siblings t)

theorem Becomes.leftOpen {env : Env} {siblings : List ExecutionTask} {t t' : ExecutionTask}
    (h : Becomes env siblings t t') :
    t'.status.terminal = false ↔ LeftOpen env siblings t := by
  have hwaiting : (t'.status = .planned ∨ t'.status = .queued ∨ t'.status = .claimed) ↔
      OpenTask env siblings t ∧ ¬DoomedTask env siblings t := by
    rw [OpenTask, DoomedTask, ← outcome_waiting, ← h.node, ← phaseOf_waiting]
    rfl
  have hkept : t'.status.terminal = false ∧ t'.status.movable = false ↔
      t.status.terminal = false ∧ t.status.movable = false := by
    rcases h.same.status with heq | ⟨hmovable, hmovable'⟩
    · rw [heq]
    · simp [hmovable, hmovable']
  rw [LeftOpen, ← hwaiting, ← hkept]
  cases t'.status <;> simp [ExecutionTaskState.terminal, ExecutionTaskState.movable]

theorem forall₂_and_map {α β γ : Type*} {R : α → β → Prop} {f : β → γ} {g : α → γ} {l : List α}
    {l' : List β} (h : List.Forall₂ R l l') (heq : l'.map f = l.map g) :
    List.Forall₂ (fun a b => R a b ∧ f b = g a) l l' := by
  induction h with
  | nil => exact .nil
  | cons hab _ ih =>
    rw [List.map_cons, List.map_cons, List.cons.injEq] at heq
    exact .cons ⟨hab, heq.1⟩ (ih heq.2)

/-! ## What the acceptance reads -/

/-- The metadata entries that a rollup writes. -/
def rollupKeys : List String :=
  ["blocked_by_dependency_failure", "failure", "dependency_block_history", "dependency_deferral",
    "dependency_redispatched_at"]

/-- The same row but for the entries of a rollup and a move that completes nothing. -/
structure SameOutput (t t' : ExecutionTask) : Prop where
  row : t' = { t with status := t'.status, metadata := t'.metadata }
  completed : t'.status = .completed ↔ t.status = .completed
  metadata : ∀ key ∉ rollupKeys, Fields.get t'.metadata key = Fields.get t.metadata key

/-- The acceptance functions read which tasks are completed and no entry of a rollup. -/
def Env.ReadsOutputs (env : Env) : Prop := ∀ l l', List.Forall₂ SameOutput l l' →
  env.observeAcceptanceReasons l' = env.observeAcceptanceReasons l ∧
    env.evaluateMissionAcceptance l' = env.evaluateMissionAcceptance l

/-- The acceptance of the tasks can be evaluated. -/
def AcceptanceEvaluates (env : Env) (mission : Mission) (siblings : List ExecutionTask) : Prop :=
  ∃ acceptance, evaluateAcceptance env mission siblings = .ok acceptance

section Outputs
variable {env : Env} {now : String} {siblings : List ExecutionTask} {t t₁ t₂ : ExecutionTask}

theorem SameOutput.refl (t : ExecutionTask) : SameOutput t t := ⟨rfl, .rfl, fun _ _ => rfl⟩

theorem SameOutput.trans (h : SameOutput t t₁) (g : SameOutput t₁ t₂) : SameOutput t t₂ := by
  refine ⟨?_, g.completed.trans h.completed, fun key hkey => ?_⟩
  · rw [g.row, h.row]
  · rw [g.metadata key hkey, h.metadata key hkey]

theorem recoverDependent_output (h : t.status = .blocked) :
    SameOutput t (recoverDependent env now t) := by
  refine ⟨rfl, by simp [recoverDependent, h], fun key hkey => ?_⟩
  simp only [rollupKeys, List.mem_cons, List.not_mem_nil, or_false, not_or] at hkey
  simp [recoverDependent, Fields.get_set, Fields.get_pop, hkey]

theorem redispatchDependent_output (t : ExecutionTask) :
    SameOutput t (redispatchDependent now t) := by
  refine ⟨rfl, .rfl, fun key hkey => ?_⟩
  simp only [rollupKeys, List.mem_cons, List.not_mem_nil, or_false, not_or] at hkey
  simp [redispatchDependent, Fields.get_set, Fields.get_pop, hkey]

theorem blockDependent_output {failedKeys : List String}
    (h : t.status = .planned ∨ t.status = .queued ∨ t.status = .claimed) :
    SameOutput t (blockDependent env failedKeys t) := by
  refine ⟨rfl, ?_, fun key hkey => ?_⟩
  · rcases h with h | h | h
    all_goals simp [blockDependent, h]
  · simp only [rollupKeys, List.mem_cons, List.not_mem_nil, or_false, not_or] at hkey
    simp [blockDependent, Fields.get_set, hkey]

theorem readmitRow_output (t : ExecutionTask) : SameOutput t (readmitRow env now siblings t) := by
  have hrecovered : SameOutput t
      (if recoverable env siblings t then recoverDependent env now t else t) := by
    split_ifs with h
    · exact recoverDependent_output (recoverable_status h)
    · exact .refl t
  have hredispatched : ∀ u, SameOutput u
      (if redispatchable env (recoverPass env now siblings) u then redispatchDependent now u
        else u) := by
    intro u
    split_ifs
    · exact redispatchDependent_output u
    · exact .refl u
  exact hrecovered.trans (hredispatched _)

theorem readmitPass_output : List.Forall₂ SameOutput siblings (readmitPass env now siblings) := by
  rw [readmitPass_eq_map]
  exact List.forall₂_map_right_iff.2 (List.forall₂_same.2 fun t _ => readmitRow_output t)

theorem blockPass_output : List.Forall₂ SameOutput siblings (blockPass env siblings) := by
  refine List.forall₂_map_right_iff.2 (List.forall₂_same.2 fun t _ => ?_)
  split_ifs with h
  · exact blockDependent_output (blockable_status h)
  · exact .refl t

theorem sameOutputs_trans {l₁ l₂ l₃ : List ExecutionTask} (h : List.Forall₂ SameOutput l₁ l₂)
    (g : List.Forall₂ SameOutput l₂ l₃) : List.Forall₂ SameOutput l₁ l₃ := by
  rw [List.forall₂_iff_get] at *
  refine ⟨h.1.trans g.1, fun i h₁ h₃ => ?_⟩
  have h₂ : i < l₂.length := h.1 ▸ h₁
  exact (h.2 i h₁ h₂).trans (g.2 i h₂ h₃)

/-- The acceptance can be evaluated when its two functions return on the tasks. -/
theorem acceptanceEvaluates_iff {mission : Mission} : AcceptanceEvaluates env mission siblings ↔
    (∃ observed, env.observeAcceptanceReasons siblings
      (match Fields.get (missionAcceptanceContract mission) "require_observed_contacts" with
        | none => true
        | some v => v = .bool true) = .ok observed) ∧
      ∃ result, env.evaluateMissionAcceptance siblings (missionAcceptanceContract mission) =
        .ok result := by
  constructor
  · rintro ⟨acceptance, h⟩
    obtain ⟨observed, hobserved, hrest⟩ := bind_eq_ok.1 h
    obtain ⟨result, hresult, -⟩ := bind_eq_ok.1 hrest
    exact ⟨⟨observed, hobserved⟩, result, hresult⟩
  · rintro ⟨⟨observed, hobserved⟩, result, hresult⟩
    by_cases hincomplete : deliverableIncomplete mission = true
    · exact ⟨_, bind_eq_ok.2 ⟨observed, hobserved, bind_eq_ok.2 ⟨result, hresult,
        if_pos hincomplete⟩⟩⟩
    · exact ⟨_, bind_eq_ok.2 ⟨observed, hobserved, bind_eq_ok.2 ⟨result, hresult,
        if_neg hincomplete⟩⟩⟩

/-- What a rollup changes does not concern the acceptance. -/
theorem acceptanceEvaluates_congr {mission m : Mission} {siblings' : List ExecutionTask}
    (hreads : env.ReadsOutputs) (hsame : List.Forall₂ SameOutput siblings siblings')
    (h : Fields.get m.metadata "mission_intake" = Fields.get mission.metadata "mission_intake") :
    AcceptanceEvaluates env m siblings' ↔ AcceptanceEvaluates env mission siblings := by
  have hmission : AcceptanceEvaluates env m siblings' ↔
      AcceptanceEvaluates env mission siblings' := by
    rw [AcceptanceEvaluates, evaluateAcceptance_congr h, AcceptanceEvaluates]
  rw [hmission, acceptanceEvaluates_iff, acceptanceEvaluates_iff, (hreads _ _ hsame).1,
    (hreads _ _ hsame).2]

end Outputs

/-! ## Whether a call returns -/

/-- An open mission of the task's tenant with this intake. -/
def UnderwayWith (intake : Option Json) (task : ExecutionTask) (db : Db) : Prop :=
  ∃ m, db.missions.get task.missionId = some m ∧ m.tenantId = task.tenantId ∧
    m.status.terminal = false ∧ Fields.get m.metadata "mission_intake" = intake

section Calls
variable {env : Env} {amb : Ambient} {s s' : Session} {task : ExecutionTask}
  {origin siblings : List ExecutionTask} {mission : Mission} {intake : Option Json}

theorem UnderwayWith.underway (h : UnderwayWith intake task s.db) :
    Underway task.tenantId task.missionId s.db := by
  obtain ⟨m, hrow, htenant, hopen, -⟩ := h
  exact ⟨m, hrow, htenant, hopen⟩

theorem reconcileReviewHold_intake (db : Db) (now : String) (mission : Mission) :
    Fields.get (reconcileReviewHold db now mission).metadata "mission_intake" =
      Fields.get mission.metadata "mission_intake" := by
  unfold reconcileReviewHold
  dsimp only
  split_ifs
  · exact Fields.get_set_ne _ _ (by simp)
  · rfl

theorem finishMission_ok_iff {now : String} :
    (∃ s', finishMission env now s mission siblings = .ok s') ↔
      AcceptanceEvaluates env mission siblings := by
  constructor
  · rintro ⟨s', h⟩
    obtain ⟨acceptance, hacceptance, -⟩ := bind_eq_ok.1 h
    exact ⟨acceptance, hacceptance⟩
  · rintro ⟨acceptance, hacceptance⟩
    unfold finishMission
    rw [hacceptance]
    simp only [bind, Except.bind]
    split
    all_goals exact ⟨_, rfl⟩

/-- A call on an open mission returns when its loops go through and, unless it blocks a task or
leaves one open, the acceptance can be evaluated. -/
theorem rollupCall_ok_iff (hids : Function.Injective amb.dispatchId)
    (hrow : s.db.missions.get task.missionId = some mission)
    (htenant : mission.tenantId = task.tenantId) (hopen : mission.status.terminal = false)
    (htasks : s.db.listForMission task.missionId ≠ []) :
    let readmitted := readmitPass env amb.now (s.db.listForMission task.missionId)
    (∃ r, rollupCall env amb s task = .ok r) ↔ ReadyRearm env amb s task.missionId ∧
      ((∃ t ∈ readmitted, blockable env (failedNodeKeys readmitted) t = true) ∨
        (∃ t ∈ readmitted, t.status.terminal = false) ∨
        AcceptanceEvaluates env mission readmitted) := by
  intro readmitted
  unfold rollupCall
  rw [getMissionForTenant_of_row hrow htenant]
  dsimp only
  set held := reconcileReviewHold s.db amb.now mission with hheld
  have hheldOpen : held.status.terminal = false := reconcileReviewHold_open hopen
  have hempty : ¬((s.saveMission held).db.listForMission task.missionId).isEmpty = true := by
    rw [List.isEmpty_iff]
    exact htasks
  have hstored : ReadyRearm env amb (s.saveMission held) task.missionId ↔
      ReadyRearm env amb s task.missionId := readyRearm_saveMission
  have hrearm : (∃ s', readmitDependents env amb (s.saveMission held) task.missionId = .ok s') ↔
      ReadyRearm env amb s task.missionId := (readmitDependents_iff hids).trans hstored
  rw [if_neg (by simp [hheldOpen]), if_neg hempty, ← hrearm]
  cases hreadmit : readmitDependents env amb (s.saveMission held) task.missionId with
  | error e => simp [bind, Except.bind]
  | ok s₂ =>
    have hlist := listForMission_readmitDependents hreadmit
    rw [show readmitPass env amb.now ((s.saveMission held).db.listForMission task.missionId) =
      readmitted from rfl] at hlist
    simp only [bind, Except.bind, hlist, Except.ok.injEq, exists_eq', true_and]
    have hblock : (readmitted.filter (blockable env (failedNodeKeys readmitted))).isEmpty = true ↔
        ¬∃ t ∈ readmitted, blockable env (failedNodeKeys readmitted) t = true := by
      simp [List.isEmpty_iff, List.filter_eq_nil_iff]
    by_cases hsome : ∃ t ∈ readmitted, blockable env (failedNodeKeys readmitted) t = true
    · rw [if_neg (hblock.not.2 (not_not.2 hsome))]
      simp [hsome, pure, Except.pure]
    · rw [if_pos (hblock.2 hsome), or_iff_right hsome]
      by_cases hany : (readmitted.any fun t => !t.status.terminal) = true
      · have hleft : ∃ t ∈ readmitted, t.status.terminal = false := by
          obtain ⟨t, ht, htopen⟩ := List.any_eq_true.1 hany
          exact ⟨t, ht, by simpa using htopen⟩
        rw [if_pos hany]
        simp [hleft, pure, Except.pure]
      · have hleft : ¬∃ t ∈ readmitted, t.status.terminal = false := by
          rintro ⟨t, ht, htopen⟩
          exact hany (List.any_eq_true.2 ⟨t, ht, by simp [htopen]⟩)
        have hfinish : (∃ s', finishMission env amb.now s₂ held readmitted = .ok s') ↔
            AcceptanceEvaluates env mission readmitted := by
          rw [finishMission_ok_iff, AcceptanceEvaluates, hheld,
            evaluateAcceptance_congr (reconcileReviewHold_intake s.db amb.now mission),
            AcceptanceEvaluates]
        rw [if_neg hany, or_iff_right hleft, ← hfinish]
        cases finishMission env amb.now s₂ held readmitted <;> simp [pure, Except.pure]

/-- A call that starts over keeps the mission as it was loaded. -/
theorem again_underway (hunder : UnderwayWith intake task s.db) (h : Again env amb task s s') :
    UnderwayWith intake task s'.db := by
  obtain ⟨mission, hrow, htenant, hopen, hintake⟩ := hunder
  unfold Again rollupCall at h
  rw [getMissionForTenant_of_row hrow htenant] at h
  dsimp only at h
  set held := reconcileReviewHold s.db amb.now mission with hheld
  have hcolumns := reconcileReviewHold_columns s.db amb.now mission
  have hheldRow : (s.saveMission held).db.missions.get task.missionId = some held :=
    get_saveMission_row hrow (hcolumns.1.trans (Rows.key_of_get hrow))
  have hheldIntake : Fields.get held.metadata "mission_intake" = intake :=
    (reconcileReviewHold_intake s.db amb.now mission).trans hintake
  rw [if_neg (by simp [hheld, reconcileReviewHold_open hopen])] at h
  split_ifs at h with hempty
  · cases h
  · obtain ⟨s₂, hreadmission, hrest⟩ := bind_eq_ok.1 h
    split_ifs at hrest
    · cases hrest
    · obtain ⟨s₃, -, hs₃⟩ := bind_eq_ok.1 hrest
      cases hs₃
    · obtain ⟨rfl, -⟩ := Prod.mk.inj (Except.ok.inj hrest)
      rw [UnderwayWith, (blockDependents_missionSteps env s₂ _ _ _).2,
        (readmitDependents_missionSteps hreadmission).2]
      exact ⟨held, hheldRow, hcolumns.2.trans htenant, reconcileReviewHold_open hopen, hheldIntake⟩

/-- The re-admitting loops leave no ready dependent waiting. -/
theorem readmitRow_settled {now : String} {u : ExecutionTask}
    (h : dependenciesCompleted env siblings u = true) :
    ¬AwaitsReadmission (readmitRow env now siblings u) := by
  by_cases hstatus : u.status = .queued ∨
      u.status = .blocked ∧ u.blockedByDependencyFailure.isSome = true
  · obtain ⟨hqueued, hdeferred⟩ : (readmitRow env now siblings u).status = .queued ∧
        (readmitRow env now siblings u).dependencyDeferred = false := readmitRow_of_ready h hstatus
    rintro (⟨-, hdeferral⟩ | ⟨hblocked, -⟩)
    · rw [hdeferred] at hdeferral
      cases hdeferral
    · rw [hqueued] at hblocked
      cases hblocked
  · rw [not_or] at hstatus
    have hrecoverable : recoverable env siblings u = false := by
      rw [Bool.eq_false_iff]
      intro hrecoverable
      obtain ⟨hheld, -⟩ := recoverable_iff.1 hrecoverable
      exact hstatus.2 (phaseOf_held.1 hheld)
    have hredispatchable : redispatchable env (recoverPass env now siblings) u = false := by
      simp [redispatchable, hstatus.1]
    have hrow : readmitRow env now siblings u = u := by
      simp [readmitRow, hrecoverable, hredispatchable]
    rw [hrow]
    rintro (⟨hqueued, -⟩ | hblocked)
    · exact hstatus.1 hqueued
    · exact hstatus.2 hblocked

/-- In a graph that is not torn the next call has nothing to re-admit. -/
theorem again_readyRearm (hunder : Underway task.tenantId task.missionId s.db)
    (hsame : List.Forall₂ SameNode origin (s.db.listForMission task.missionId))
    (htorn : ¬Torn (nodesOf env origin task s)) (h : Again env amb task s s') :
    ReadyRearm env amb s' task.missionId := by
  obtain ⟨-, -, hlist, -⟩ | ⟨habsurd, -⟩ := rollupCall_pass hunder h
  · set current := s.db.listForMission task.missionId with hcurrent
    intro t' ht' hawaits hready
    rw [hlist, dependenciesCompleted_same blockPass_same (.refl t'),
      dependenciesCompleted_same readmitPass_same (.refl t')] at hready
    rw [hlist, blockPass, List.mem_map] at ht'
    obtain ⟨v, hv, rfl⟩ := ht'
    by_cases hblockable :
        blockable env (failedNodeKeys (readmitPass env amb.now current)) v = true
    · -- a ready task above a failed key would be torn
      rw [if_pos hblockable, dependenciesCompleted_same (List.forall₂_same.2 fun w _ => .refl w)
        (blockDependent_same (blockable_status hblockable))] at hready
      have hnode : nodeOf env origin v ∈ admitted (nodesOf env origin task s) := by
        rw [← nodesOf_readmit env amb hsame]
        exact List.mem_map_of_mem hv
      have hnodeReady : dependenciesCompleted env origin v = true := by
        rw [← dependenciesCompleted_same hsame (.refl v)]
        exact hready
      exact absurd (impossible_of_blockable hsame hblockable)
        (not_impossible_of_ready htorn hnode hnodeReady)
    · rw [if_neg hblockable] at hawaits hready
      rw [readmitPass_eq_map, List.mem_map] at hv
      obtain ⟨u, -, rfl⟩ := hv
      rw [dependenciesCompleted_same (List.forall₂_same.2 fun w _ => .refl w)
        (readmitRow_same u)] at hready
      exact absurd hawaits (readmitRow_settled hready)
  · cases habsurd

end Calls

/-! ## Whether a rollup returns -/

section Runs
variable {env : Env} {amb : Ambient} {s s' : Session} {task : ExecutionTask}
  {origin siblings : List ExecutionTask} {mission : Mission} {intake : Option Json}

/-- More stack does not change a result. -/
theorem returns_of_rollup {fuel : ℕ} (h : maybeRollupMissionStatus env amb fuel s task = .ok s') :
    RollupReturns env amb task s s' := by
  refine ⟨fuel, fun k => ?_⟩
  induction fuel generalizing s with
  | zero => cases h
  | succ fuel ih =>
    rw [maybeRollupMissionStatus_succ] at h
    obtain ⟨⟨s₁, again⟩, hcall, hrest⟩ := bind_eq_ok.1 h
    rw [Nat.add_right_comm, maybeRollupMissionStatus_succ, hcall]
    cases again with
    | false => exact hrest
    | true => exact ih hrest

theorem RollupReturns.eq {s₁ s₂ : Session} (h : RollupReturns env amb task s s₁)
    (g : RollupReturns env amb task s s₂) : s₁ = s₂ := by
  obtain ⟨m, hm⟩ := h
  obtain ⟨n, hn⟩ := g
  have hsum := hm n
  rw [Nat.add_comm, hn m] at hsum
  exact (Except.ok.inj hsum).symm

/-- A rollup returns with its last call. -/
theorem rollupReturns_iff : RollupReturns env amb task s s' ↔
    rollupCall env amb s task = .ok (s', false) ∨
      ∃ s₁, Again env amb task s s₁ ∧ RollupReturns env amb task s₁ s' := by
  constructor
  · rintro ⟨n, hn⟩
    have hrun := hn 1
    rw [maybeRollupMissionStatus_succ] at hrun
    obtain ⟨⟨s₁, again⟩, hcall, hrest⟩ := bind_eq_ok.1 hrun
    cases again with
    | false =>
      obtain rfl := Except.ok.inj hrest
      exact .inl hcall
    | true => exact .inr ⟨s₁, hcall, returns_of_rollup hrest⟩
  · rintro (hcall | ⟨s₁, hcall, n, hn⟩)
    · have hrun : maybeRollupMissionStatus env amb 1 s task = .ok s' := by
        rw [maybeRollupMissionStatus_succ, hcall]
        rfl
      exact returns_of_rollup hrun
    · have hrun : maybeRollupMissionStatus env amb (n + 1) s task = .ok s' := by
        rw [maybeRollupMissionStatus_succ,
          show rollupCall env amb s task = .ok (s₁, true) from hcall]
        exact hn 0
      exact returns_of_rollup hrun

/-- The tasks that a rollup of an open mission without further calls leaves. -/
theorem becomes_of_settlesTo {nodes' : List (Node String String)}
    (hsame : List.Forall₂ SameNode origin siblings)
    (hfinal : SettlesTo (origin.map (nodeOf env origin)) nodes')
    (hnodes : siblings.map (nodeOf env origin) = nodes') :
    List.Forall₂ (Becomes env origin) origin siblings := by
  have heq := hnodes.trans hfinal.eq_outcome
  rw [List.map_map] at heq
  exact (forall₂_and_map hsame heq).imp fun t t' ht => ⟨ht.1, ht.2⟩

/-- What the calls of a rollup keep: the open mission with its intake, the graph of the tasks and
what the acceptance reads of them. -/
structure Reached (env : Env) (origin : List ExecutionTask) (intake : Option Json)
    (task : ExecutionTask) (s : Session) : Prop where
  underway : UnderwayWith intake task s.db
  same : List.Forall₂ SameNode origin (s.db.listForMission task.missionId)
  output : List.Forall₂ SameOutput origin (s.db.listForMission task.missionId)

theorem Reached.again (h : Reached env origin intake task s) (hcall : Again env amb task s s') :
    Reached env origin intake task s' := by
  obtain ⟨-, hsame, -, -⟩ := again_pass h.underway.underway h.same hcall
  refine ⟨again_underway h.underway hcall, hsame, ?_⟩
  obtain ⟨-, -, hlist, -⟩ | ⟨habsurd, -⟩ := rollupCall_pass h.underway.underway hcall
  · rw [hlist]
    exact sameOutputs_trans h.output (sameOutputs_trans readmitPass_output blockPass_output)
  · cases habsurd

/-- Whether a call returns, in the terms of the graph. -/
theorem Reached.call_ok_iff (h : Reached env origin intake task s) (htasks : origin ≠ [])
    (hids : Function.Injective amb.dispatchId) (hrearm : ReadyRearm env amb s task.missionId) :
    ∃ m : Mission, Fields.get m.metadata "mission_intake" = intake ∧
      ((∃ r, rollupCall env amb s task = .ok r) ↔
        (∃ n ∈ admitted (nodesOf env origin task s),
            Impossible (admitted (nodesOf env origin task s)) n) ∨
        (∃ t ∈ readmitPass env amb.now (s.db.listForMission task.missionId),
          t.status.terminal = false) ∨
        AcceptanceEvaluates env m (readmitPass env amb.now (s.db.listForMission task.missionId))) := by
  obtain ⟨m, hrow, htenant, hopen, hintake⟩ := h.underway
  have hsome : s.db.listForMission task.missionId ≠ [] := by
    intro hnil
    have hsame := h.same
    rw [hnil] at hsame
    exact htasks (List.forall₂_nil_right_iff.1 hsame)
  refine ⟨m, hintake, ?_⟩
  refine (rollupCall_ok_iff hids hrow htenant hopen hsome).trans ?_
  rw [← nodesOf_readmit env amb h.same]
  simp only [hrearm, true_and, List.mem_map, exists_exists_and_eq_and, impossible_iff]

/-- A rollup that calls itself no more returns with this call. -/
theorem returns_iff_of_last (hlast : ∀ s₁, ¬Again env amb task s s₁) :
    (∃ s', RollupReturns env amb task s s') ↔ ∃ r, rollupCall env amb s task = .ok r := by
  constructor
  · rintro ⟨s', h⟩
    rcases rollupReturns_iff.1 h with hcall | ⟨s₁, hagain, -⟩
    · exact ⟨_, hcall⟩
    · exact absurd hagain (hlast s₁)
  · rintro ⟨⟨s', again⟩, hr⟩
    cases again with
    | false => exact ⟨s', rollupReturns_iff.2 (.inl hr)⟩
    | true => exact absurd hr (hlast s')

/-- A rollup that calls itself returns what that call returns. -/
theorem returns_iff_of_again {s₁ : Session} (hagain : Again env amb task s s₁) :
    (∃ s', RollupReturns env amb task s s') ↔ ∃ s', RollupReturns env amb task s₁ s' := by
  refine exists_congr fun s' => rollupReturns_iff.trans ⟨?_, fun h => .inr ⟨s₁, hagain, h⟩⟩
  rintro (hlast | ⟨s₂, hagain', hreturns⟩)
  · cases hlast.symm.trans hagain
  · obtain rfl : s₂ = s₁ := (Prod.mk.inj (Except.ok.inj (hagain'.symm.trans hagain))).1
    exact hreturns

/-- The rollup leaves open what is open in the tasks it ends with. -/
theorem open_iff_of_becomes (h : List.Forall₂ (Becomes env origin) origin siblings) :
    (∃ t ∈ siblings, t.status.terminal = false) ↔ ∃ t ∈ origin, LeftOpen env origin t := by
  constructor
  · rintro ⟨t', ht', hopen⟩
    obtain ⟨t, ht, htt'⟩ := (mem_of_forall₂ h).2 t' ht'
    exact ⟨t, ht, htt'.leftOpen.1 hopen⟩
  · rintro ⟨t, ht, hopen⟩
    obtain ⟨t', ht', htt'⟩ := (mem_of_forall₂ h).1 t ht
    exact ⟨t', ht', htt'.leftOpen.2 hopen⟩

/-- A call that finds an impossible node is followed by another. -/
theorem Reached.again_of_impossible (h : Reached env origin intake task s)
    (hsome : ∃ n ∈ admitted (nodesOf env origin task s),
      Impossible (admitted (nodesOf env origin task s)) n) {s₁ : Session} {again : Bool}
    (hr : rollupCall env amb s task = .ok (s₁, again)) : Again env amb task s s₁ := by
  obtain ⟨rfl, -⟩ | ⟨-, hnone, -⟩ := rollupCall_pass h.underway.underway hr
  · exact hr
  · obtain ⟨n, hn, himpossible⟩ := hsome
    rw [← nodesOf_readmit env amb h.same] at hn himpossible
    obtain ⟨t, ht, rfl⟩ := List.mem_map.1 hn
    rw [impossible_iff, hnone t ht] at himpossible
    cases himpossible

/-- Where passes settle, a rollup that can re-arm its dependents returns exactly when it leaves
a task open or its end goes through. -/
theorem Reached.returns_iff {nodes nodes' : List (Node String String)} {ends : Prop}
    (h : SettlesTo nodes nodes') (hreached : Reached env origin intake task s)
    (hnodes : nodesOf env origin task s = nodes) (hids : Function.Injective amb.dispatchId)
    (hfinal : SettlesTo (origin.map (nodeOf env origin)) nodes') (htasks : origin ≠ [])
    (hends : (¬∃ t ∈ origin, LeftOpen env origin t) → ∀ (m : Mission) (final : List ExecutionTask),
      Fields.get m.metadata "mission_intake" = intake → List.Forall₂ SameOutput origin final →
        (AcceptanceEvaluates env m final ↔ ends))
    (hrearm : ReadyRearm env amb s task.missionId) :
    (∃ s', RollupReturns env amb task s s') ↔ (∃ t ∈ origin, LeftOpen env origin t) ∨ ends := by
  obtain ⟨m, hintake, hcall⟩ := hreached.call_ok_iff htasks hids hrearm
  induction h generalizing s m with
  | last hnone =>
    have hnot : ∀ s₁, ¬Again env amb task s s₁ := by
      intro s₁ hagain
      obtain ⟨-, -, -, n, hn, himpossible⟩ :=
        again_pass hreached.underway.underway hreached.same hagain
      rw [hnodes] at hn himpossible
      exact hnone n hn himpossible
    set final := readmitPass env amb.now (s.db.listForMission task.missionId) with hfinalTasks
    have hbecomes : List.Forall₂ (Becomes env origin) origin final := by
      refine becomes_of_settlesTo (sameNodes_trans hreached.same readmitPass_same) hfinal ?_
      rw [hfinalTasks, nodesOf_readmit env amb hreached.same, hnodes]
    rw [returns_iff_of_last hnot, hcall, open_iff_of_becomes hbecomes, hnodes,
      or_iff_right (by push Not; exact hnone)]
    by_cases hopen : ∃ t ∈ origin, LeftOpen env origin t
    · simp [hopen]
    · rw [hends hopen m final hintake (sameOutputs_trans hreached.output readmitPass_output)]
  | again hsome hrest ih =>
    rw [← hnodes] at hsome
    obtain ⟨⟨s₁, again⟩, hr⟩ := hcall.2 (.inl hsome)
    have hagain := hreached.again_of_impossible hsome hr
    have htorn : ¬Torn (nodesOf env origin task s) := by
      rw [hnodes, ← torn_pass]
      exact hrest.not_torn
    obtain ⟨-, -, hpass, -⟩ := again_pass hreached.underway.underway hreached.same hagain
    have hreached₁ := hreached.again hagain
    have hrearm₁ := again_readyRearm hreached.underway.underway hreached.same htorn hagain
    obtain ⟨m₁, hintake₁, hcall₁⟩ := hreached₁.call_ok_iff htasks hids hrearm₁
    rw [returns_iff_of_again hagain]
    exact ih hreached₁ (by rw [hpass, hnodes]) hfinal hrearm₁ m₁ hintake₁ hcall₁

theorem reached_first (hrow : s.db.missions.get task.missionId = some mission)
    (htenant : mission.tenantId = task.tenantId) (hopen : mission.status.terminal = false) :
    Reached env (s.db.listForMission task.missionId)
      (Fields.get mission.metadata "mission_intake") task s :=
  ⟨⟨mission, hrow, htenant, hopen, rfl⟩, List.forall₂_same.2 fun t _ => .refl t,
    List.forall₂_same.2 fun t _ => .refl t⟩

theorem RollupReturns.not_torn (h : RollupReturns env amb task s s')
    (hunder : Underway task.tenantId task.missionId s.db) :
    ¬TornGraph env (s.db.listForMission task.missionId) := by
  obtain ⟨n, hn⟩ := h
  exact (settlesTo_of_rollup hunder (List.forall₂_same.2 fun t _ => .refl t) (hn 0)).not_torn

theorem RollupReturns.readyRearm (h : RollupReturns env amb task s s')
    (hids : Function.Injective amb.dispatchId)
    (hunder : Underway task.tenantId task.missionId s.db) :
    ReadyRearm env amb s task.missionId := by
  obtain ⟨mission, hrow, htenant, hopen⟩ := hunder
  by_cases htasks : s.db.listForMission task.missionId = []
  · intro t ht
    rw [htasks] at ht
    cases ht
  · refine ((rollupCall_ok_iff hids hrow htenant hopen htasks).1 ?_).1
    rcases rollupReturns_iff.1 h with hlast | ⟨s₁, hagain, -⟩
    · exact ⟨_, hlast⟩
    · exact ⟨_, hagain⟩

/-- The rollup of an open mission returns exactly when its graph is not torn, every ready
dependent that waits can be re-armed, and a task is left open or the acceptance can be
evaluated. -/
theorem rollup_returns_iff (hreads : env.ReadsOutputs) (hids : Function.Injective amb.dispatchId)
    (hrow : s.db.missions.get task.missionId = some mission)
    (htenant : mission.tenantId = task.tenantId) (hopen : mission.status.terminal = false)
    (htasks : s.db.listForMission task.missionId ≠ []) :
    (∃ s', RollupReturns env amb task s s') ↔
      ¬TornGraph env (s.db.listForMission task.missionId) ∧
        ReadyRearm env amb s task.missionId ∧
        ((∃ t ∈ s.db.listForMission task.missionId,
          LeftOpen env (s.db.listForMission task.missionId) t) ∨
          AcceptanceEvaluates env mission (s.db.listForMission task.missionId)) := by
  have hunder : Underway task.tenantId task.missionId s.db := ⟨mission, hrow, htenant, hopen⟩
  have hiff : ¬TornGraph env (s.db.listForMission task.missionId) →
      ReadyRearm env amb s task.missionId → ((∃ s', RollupReturns env amb task s s') ↔
        (∃ t ∈ s.db.listForMission task.missionId,
          LeftOpen env (s.db.listForMission task.missionId) t) ∨
          AcceptanceEvaluates env mission (s.db.listForMission task.missionId)) := by
    intro htorn hrearm
    obtain ⟨nodes', hsettles⟩ := settles_iff.2 htorn
    exact (reached_first hrow htenant hopen).returns_iff hsettles rfl hids hsettles htasks
      (fun _ m final hintake hsame => acceptanceEvaluates_congr hreads hsame hintake) hrearm
  constructor
  · rintro ⟨s', h⟩
    have htorn := h.not_torn hunder
    have hrearm := h.readyRearm hids hunder
    exact ⟨htorn, hrearm, (hiff htorn hrearm).1 ⟨s', h⟩⟩
  · rintro ⟨htorn, hrearm, hcondition⟩
    exact (hiff htorn hrearm).2 hcondition

variable (env amb) in
/-- A rollup without a mission under way returns. -/
theorem rollup_returns_idle (hunder : ¬Underway task.tenantId task.missionId s.db) :
    ∃ s', RollupReturns env amb task s s' := by
  obtain ⟨s', hcall, -⟩ := rollupCall_idle env amb hunder
  exact ⟨s', rollupReturns_iff.2 (.inl hcall)⟩

end Runs

end Ajenda.Runtime
