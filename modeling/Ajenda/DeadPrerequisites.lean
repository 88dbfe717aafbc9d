import Ajenda.RollupReturns

/-!
# Tasks that wait for a dead prerequisite

A rollup blocks the planned, queued and claimed tasks above failed, dead-lettered and blocked
ones, level by level. It does not look at cancelled prerequisites and does not block a task
under review, and these are the only ways in which a task is left waiting for a prerequisite
that will not complete.
-/
namespace Ajenda.Runtime
open JsonValue KeyedRows Relation FailurePropagation

/-- Not terminal and not yet running. -/
def ExecutionTaskState.unstarted : ExecutionTaskState → Bool
  | .planned | .queued | .claimed | .pendingReview => true
  | _ => false

/-- Terminal and not completed. -/
def ExecutionTaskState.dead : ExecutionTaskState → Bool
  | .failed | .deadLettered | .blocked | .cancelled => true
  | _ => false

/-- `u` is filed under one of the dependency keys of `t`. -/
def DependsOn (env : Env) (siblings : List ExecutionTask) (t u : ExecutionTask) : Prop :=
  u ∈ siblings ∧ ∃ key ∈ dependencyTexts env t, u.graphNodeKey = some key

/-- A task that has not started and has, directly or through a chain of dependencies, a dead
prerequisite. -/
def DeadWait (env : Env) (siblings : List ExecutionTask) (t : ExecutionTask) : Prop :=
  t.status.unstarted = true ∧
    ∃ u, TransGen (DependsOn env siblings) t u ∧ u.status.dead = true

def NoDeadWait (env : Env) (siblings : List ExecutionTask) : Prop :=
  ∀ t ∈ siblings, ¬DeadWait env siblings t

/-! ## What a rollup makes of the tasks -/

section Fates
variable (env : Env) (siblings : List ExecutionTask)

/-- The task has failed for good or is doomed. -/
def Fails (t : ExecutionTask) : Prop := (nodeOf env siblings t).Dead ∨ DoomedTask env siblings t

/-- The task waits after the rollup. -/
def StillWaits (t : ExecutionTask) : Prop :=
  t.status = .pendingReview ∨ OpenTask env siblings t ∧ ¬DoomedTask env siblings t

/-- A task that survives above a prerequisite that does not: the prerequisite is cancelled, or
the task is in none of the states that the rollup blocks. -/
def Overlooked (t u : ExecutionTask) : Prop :=
  DependsOn env siblings t u ∧ t.status ≠ .cancelled ∧ ¬Fails env siblings t ∧
    (u.status = .cancelled ∨ ¬OpenTask env siblings t ∧ Fails env siblings u)

end Fates

section Outcome
variable {env : Env} {siblings siblings' : List ExecutionTask} {t t' : ExecutionTask}

theorem Becomes.dead (h : Becomes env siblings t t') :
    t'.status.dead = true ↔ t.status = .cancelled ∨ Fails env siblings t := by
  have hcancelled := h.same.status_iff .cancelled rfl
  have hfails : t'.status.failedish = true ↔ Fails env siblings t := by
    rw [Fails, DoomedTask, ← outcome_failing, ← h.node, ← phaseOf_failing]
    rfl
  rw [← hcancelled, ← hfails]
  cases t'.status <;> simp [ExecutionTaskState.dead, ExecutionTaskState.failedish]

theorem Becomes.unstarted (h : Becomes env siblings t t') :
    t'.status.unstarted = true ↔ StillWaits env siblings t := by
  have hreview := h.same.status_iff .pendingReview rfl
  have hwaiting : (t'.status = .planned ∨ t'.status = .queued ∨ t'.status = .claimed) ↔
      OpenTask env siblings t ∧ ¬DoomedTask env siblings t := by
    rw [OpenTask, DoomedTask, ← outcome_waiting, ← h.node, ← phaseOf_waiting]
    rfl
  rw [StillWaits, ← hreview, ← hwaiting]
  cases t'.status <;> simp [ExecutionTaskState.unstarted]

theorem Becomes.dependsOn (ht : Becomes env siblings t t') {u u' : ExecutionTask}
    (hu : Becomes env siblings u u') (hmem : u ∈ siblings) (hmem' : u' ∈ siblings') :
    DependsOn env siblings' t' u' ↔ DependsOn env siblings t u := by
  rw [DependsOn, DependsOn, dependencyTexts_same ht.same, hu.same.graphNodeKey]
  simp [hmem, hmem']

variable (hpairs : List.Forall₂ (Becomes env siblings) siblings siblings')
include hpairs

/-- A chain of dependencies after the rollup was one before it. -/
theorem chain_before (ht : Becomes env siblings t t') {u' : ExecutionTask}
    (h : TransGen (DependsOn env siblings') t' u') :
    ∃ u ∈ siblings, Becomes env siblings u u' ∧ TransGen (DependsOn env siblings) t u := by
  induction h with
  | single hdepends =>
    obtain ⟨u, hu, hbecomes⟩ := (mem_of_forall₂ hpairs).2 _ hdepends.1
    exact ⟨u, hu, hbecomes, .single ((ht.dependsOn hbecomes hu hdepends.1).1 hdepends)⟩
  | tail _ hdepends ih =>
    obtain ⟨x, hx, hxbecomes, hchain⟩ := ih
    obtain ⟨u, hu, hbecomes⟩ := (mem_of_forall₂ hpairs).2 _ hdepends.1
    exact ⟨u, hu, hbecomes,
      hchain.tail ((hxbecomes.dependsOn hbecomes hu hdepends.1).1 hdepends)⟩

theorem chain_after (ht : Becomes env siblings t t') {u : ExecutionTask}
    (h : TransGen (DependsOn env siblings) t u) :
    ∃ u' ∈ siblings', Becomes env siblings u u' ∧ TransGen (DependsOn env siblings') t' u' := by
  induction h with
  | single hdepends =>
    obtain ⟨u', hu', hbecomes⟩ := (mem_of_forall₂ hpairs).1 _ hdepends.1
    exact ⟨u', hu', hbecomes, .single ((ht.dependsOn hbecomes hdepends.1 hu').2 hdepends)⟩
  | tail _ hdepends ih =>
    obtain ⟨x', hx', hxbecomes, hchain⟩ := ih
    obtain ⟨u', hu', hbecomes⟩ := (mem_of_forall₂ hpairs).1 _ hdepends.1
    exact ⟨u', hu', hbecomes,
      hchain.tail ((hxbecomes.dependsOn hbecomes hdepends.1 hu').2 hdepends)⟩

omit hpairs in
/-- The first bad element of a chain that starts with a good one. -/
theorem first_on_chain {α : Type*} {r : α → α → Prop} {P : α → Prop} {a b : α}
    (h : TransGen r a b) (ha : ¬P a) (hb : P b) :
    ∃ x y, ReflTransGen r a x ∧ r x y ∧ ¬P x ∧ P y := by
  induction h with
  | single hab => exact ⟨a, _, .refl, hab, ha, hb⟩
  | @tail c d hac hcd ih =>
    by_cases hc : P c
    · exact ih hc
    · exact ⟨c, d, hac.to_reflTransGen, hcd, hc, hb⟩

/-- Where passes settle, no task waits for a dead prerequisite exactly when no waiting task is,
or depends on, a task with an overlooked prerequisite. -/
theorem noDeadWait_after (htorn : ¬TornGraph env siblings) : NoDeadWait env siblings' ↔
    ∀ t ∈ siblings, StillWaits env siblings t → ∀ x u,
      ReflTransGen (DependsOn env siblings) t x → ¬Overlooked env siblings x u := by
  constructor
  · intro hnone t ht hwaits x u hchain hoverlooked
    obtain ⟨hdepends, -, -, hdead⟩ := hoverlooked
    obtain ⟨t', ht', hbecomes⟩ := (mem_of_forall₂ hpairs).1 t ht
    obtain ⟨u', -, hu, hchain'⟩ := chain_after hpairs hbecomes (.tail' hchain hdepends)
    refine hnone t' ht' ⟨hbecomes.unstarted.2 hwaits, u', hchain', hu.dead.2 ?_⟩
    exact hdead.imp_right And.right
  · intro hnone t' ht' ⟨hunstarted, u', hchain', hdead⟩
    obtain ⟨t, ht, hbecomes⟩ := (mem_of_forall₂ hpairs).2 t' ht'
    obtain ⟨u, hu, hubecomes, hchain⟩ := chain_before hpairs hbecomes hchain'
    have halive : ¬(t.status = .cancelled ∨ Fails env siblings t) := by
      rw [← hbecomes.dead]
      intro hdead'
      cases hs : t'.status <;>
        simp [hs, ExecutionTaskState.unstarted, ExecutionTaskState.dead] at hunstarted hdead'
    obtain ⟨x, y, hx, hxy, hxalive, hydead⟩ := first_on_chain
      (P := fun t => t.status = .cancelled ∨ Fails env siblings t) hchain halive
      (hubecomes.dead.1 hdead)
    rw [not_or] at hxalive
    refine hnone t ht (hbecomes.unstarted.1 hunstarted) x y hx ⟨hxy, hxalive.1, hxalive.2, ?_⟩
    refine hydead.imp_right fun hfails => ⟨fun hopen => ?_, hfails⟩
    obtain ⟨hy, key, hkey, hfiled⟩ := hxy
    have hlost := lost_key htorn (List.mem_map_of_mem hy) hfails hfiled
    exact hxalive.2 (.inr ⟨hopen, key, hkey, hlost⟩)

end Outcome

/-! ## After a rollup -/

section Rollup
variable {env : Env} {amb : Ambient} {s s' : Session} {task : ExecutionTask} {fuel : ℕ}

theorem sameNode_of_rollup {origin : List ExecutionTask}
    (hunder : Underway task.tenantId task.missionId s.db)
    (hsame : List.Forall₂ SameNode origin (s.db.listForMission task.missionId))
    (h : maybeRollupMissionStatus env amb fuel s task = .ok s') :
    List.Forall₂ SameNode origin (s'.db.listForMission task.missionId) := by
  induction fuel generalizing s with
  | zero => cases h
  | succ fuel ih =>
    rw [maybeRollupMissionStatus_succ] at h
    obtain ⟨⟨s₁, again⟩, hcall, hrest⟩ := bind_eq_ok.1 h
    cases again with
    | true =>
      obtain ⟨hunder₁, hsame₁, -, -⟩ := again_pass hunder hsame hcall
      exact ih hunder₁ hsame₁ hrest
    | false =>
      obtain rfl := Except.ok.inj hrest
      obtain ⟨habsurd, -⟩ | ⟨-, -, hlist⟩ := rollupCall_pass hunder hcall
      · cases habsurd
      · rw [hlist]
        exact sameNodes_trans hsame readmitPass_same

/-- What a rollup makes of the tasks of its mission. -/
theorem becomes_of_rollup (hunder : Underway task.tenantId task.missionId s.db)
    (h : maybeRollupMissionStatus env amb fuel s task = .ok s') :
    ¬TornGraph env (s.db.listForMission task.missionId) ∧
      List.Forall₂ (Becomes env (s.db.listForMission task.missionId))
        (s.db.listForMission task.missionId) (s'.db.listForMission task.missionId) := by
  have hsame : List.Forall₂ SameNode (s.db.listForMission task.missionId)
      (s.db.listForMission task.missionId) := List.forall₂_same.2 fun u _ => .refl u
  have hsettles := settlesTo_of_rollup hunder hsame h
  exact ⟨hsettles.not_torn, becomes_of_settlesTo (sameNode_of_rollup hunder hsame h) hsettles rfl⟩

/-- No task waits for a dead prerequisite, and a mission whose open tasks all do is closed. -/
structure PrerequisitesSettled (env : Env) (missionId : String) (db : Db) : Prop where
  none_waits : NoDeadWait env (db.listForMission missionId)
  closed : (∀ t ∈ db.listForMission missionId, t.status.terminal = false →
      DeadWait env (db.listForMission missionId) t) →
    ∃ m, db.missions.get missionId = some m ∧ m.status.terminal = true

/-- No waiting task is, or depends through a chain on, a task above an overlooked prerequisite. -/
def NothingOverlooked (env : Env) (siblings : List ExecutionTask) : Prop :=
  ∀ t ∈ siblings, StillWaits env siblings t → ∀ x u,
    ReflTransGen (DependsOn env siblings) t x → ¬Overlooked env siblings x u

/-- Without dead waits the rollup closes a mission whose open tasks are all impossible. -/
theorem settled_of_noDeadWait (hunder : Underway task.tenantId task.missionId s.db)
    (htasks : s.db.listForMission task.missionId ≠ [])
    (h : maybeRollupMissionStatus env amb fuel s task = .ok s')
    (hnone : NoDeadWait env (s'.db.listForMission task.missionId)) :
    PrerequisitesSettled env task.missionId s'.db := by
  refine ⟨hnone, fun hall => ?_⟩
  obtain ⟨m, hrow, -, ⟨-, t, ht, hopen⟩ | ⟨-, hfinished⟩⟩ :=
    maybeRollupMissionStatus_coherent h hunder htasks
  · exact absurd (hall t ht hopen) (hnone t ht)
  · refine ⟨m, hrow, ?_⟩
    rcases hfinished.status with hstatus | hstatus
    all_goals
      rw [hstatus]
      rfl

/-- A rollup of an open mission returns and leaves no task waiting for a dead prerequisite if and
only if it returns at all and there is nothing to overlook; a closed mission is left as it is. -/
theorem prerequisites_settled_iff {mission : Mission} (hreads : env.ReadsOutputs)
    (hids : Function.Injective amb.dispatchId)
    (hrow : s.db.missions.get task.missionId = some mission)
    (htenant : mission.tenantId = task.tenantId)
    (htask : task ∈ s.db.listForMission task.missionId) :
    (∃ s', RollupReturns env amb task s s' ∧ PrerequisitesSettled env task.missionId s'.db) ↔
      mission.status.terminal = false ∧
          (¬TornGraph env (s.db.listForMission task.missionId) ∧
            ReadyRearm env amb s task.missionId ∧
            ((∃ t ∈ s.db.listForMission task.missionId,
              LeftOpen env (s.db.listForMission task.missionId) t) ∨
              AcceptanceEvaluates env mission (s.db.listForMission task.missionId))) ∧
          NothingOverlooked env (s.db.listForMission task.missionId) ∨
        mission.status.terminal = true ∧
          NoDeadWait env (s.db.listForMission task.missionId) := by
  cases hstatus : mission.status.terminal with
  | false =>
    have hunder : Underway task.tenantId task.missionId s.db := ⟨mission, hrow, htenant, hstatus⟩
    have htasks : s.db.listForMission task.missionId ≠ [] := List.ne_nil_of_mem htask
    simp only [true_and, Bool.false_eq_true, false_and, or_false]
    rw [← rollup_returns_iff hreads hids hrow htenant hstatus htasks, ← exists_and_right]
    refine exists_congr fun s' => and_congr_right ?_
    rintro ⟨n, hn⟩
    obtain ⟨htorn, hpairs⟩ := becomes_of_rollup hunder (hn 0)
    have hafter := noDeadWait_after hpairs htorn
    refine ⟨fun hsettled => hafter.1 hsettled.none_waits, fun hnothing => ?_⟩
    exact settled_of_noDeadWait hunder htasks (hn 0) (hafter.2 hnothing)
  | true =>
    have hclosed : ¬Underway task.tenantId task.missionId s.db := by
      rintro ⟨m, hm, -, hopen⟩
      obtain rfl : mission = m := Option.some_inj.1 (hrow.symm.trans hm)
      rw [hstatus] at hopen
      cases hopen
    simp only [Bool.true_eq_false, false_and, true_and, false_or]
    constructor
    · rintro ⟨s', ⟨n, hn⟩, hsettled⟩
      exact (rollup_idle hclosed (hn 0)).1 ▸ hsettled.none_waits
    · intro hnone
      obtain ⟨s', n, hn⟩ := rollup_returns_idle env amb hclosed
      obtain ⟨hlist, hterminal⟩ := rollup_idle hclosed (hn 0)
      refine ⟨s', ⟨n, hn⟩, ?_, fun _ => hterminal ⟨mission, hrow, hstatus⟩⟩
      rw [hlist]
      exact hnone

end Rollup

/-! ## A cancelled prerequisite -/

/-- A cancelled task and a queued one that depends on it. -/
def cancelledDraft : List ExecutionTask :=
  [keyedTask "draft" "draft" .cancelled [], keyedTask "send" "send" .queued ["draft"]]

def failedDraft : List ExecutionTask :=
  [keyedTask "draft" "draft" .failed [], keyedTask "send" "send" .queued ["draft"]]

theorem failedDraft_settles :
    ¬TornGraph Env.plain failedDraft ∧ NothingOverlooked Env.plain failedDraft := by
  have hready : ∀ t ∈ failedDraft, dependenciesCompleted Env.plain failedDraft t = false := by
    decide
  constructor
  · rintro ⟨n, hn, -, hcompleted, -⟩
    obtain ⟨t, ht, rfl⟩ := List.mem_map.1 hn
    exact absurd hcompleted (by simpa [nodeOf] using hready t ht)
  · intro t ht hwaits
    exfalso
    simp only [failedDraft, List.mem_cons, List.not_mem_nil, or_false] at ht
    rcases ht with rfl | rfl
    · rcases hwaits with hreview | ⟨hphase | ⟨hphase, -⟩, -⟩
      · cases hreview
      · cases hphase
      · cases hphase
    · rcases hwaits with hreview | ⟨hopen, halive⟩
      · cases hreview
      · refine halive ⟨hopen, "draft", by decide, ?_⟩
        exact .dead (List.mem_map_of_mem (a := keyedTask "draft" "draft" .failed [])
          (by simp [failedDraft])) (.inl rfl) rfl

theorem prerequisites_settled_iff_sample : ∃ s',
    RollupReturns Env.plain ⟨"now", id⟩ (keyedTask "draft" "draft" .failed [])
      (publishedSession runningMission failedDraft (by decide)) s' ∧
    PrerequisitesSettled Env.plain "mission" s'.db := by
  set task := keyedTask "draft" "draft" .failed [] with htask
  set s := publishedSession runningMission failedDraft (by decide) with hs
  have hlist : s.db.listForMission task.missionId = failedDraft := rfl
  have hrow : s.db.missions.get task.missionId = some runningMission := rfl
  have htenant : runningMission.tenantId = task.tenantId := rfl
  have hmem : task ∈ s.db.listForMission task.missionId := by
    rw [hlist]
    simp [failedDraft, htask]
  have hreads : Env.plain.ReadsOutputs := fun _ _ _ => ⟨rfl, rfl⟩
  have hsettled := @prerequisites_settled_iff Env.plain ⟨"now", id⟩ s task _ hreads
    Function.injective_id hrow htenant hmem
  rw [hlist] at hsettled
  have hrearm : ReadyRearm Env.plain ⟨"now", id⟩ s task.missionId :=
    readyRearm_of_redelivers (publishedSession_redelivers _)
  exact hsettled.2 (.inl ⟨rfl, ⟨failedDraft_settles.1, hrearm, .inr ⟨_, rfl⟩⟩,
    failedDraft_settles.2⟩)

/-- The dependent of a cancelled task stays queued, and its mission running. -/
theorem cancelled_prerequisite_keeps_waiting : ∃ s',
    maybeRollupMissionStatus Env.plain ⟨"now", id⟩ 1000
      (publishedSession runningMission cancelledDraft (by decide))
      (keyedTask "draft" "draft" .cancelled []) = .ok s' ∧
    s'.db.missions.get "mission" = some runningMission ∧
    ¬PrerequisitesSettled Env.plain "mission" s'.db := by
  obtain ⟨s', h, hrow, hlist⟩ : ∃ s', maybeRollupMissionStatus Env.plain ⟨"now", id⟩ 1000
      (publishedSession runningMission cancelledDraft (by decide))
      (keyedTask "draft" "draft" .cancelled []) = .ok s' ∧
      s'.db.missions.get "mission" = some runningMission ∧
      s'.db.listForMission "mission" = cancelledDraft := ⟨_, rfl, rfl, rfl⟩
  refine ⟨s', h, hrow, fun hsettled => ?_⟩
  have hnone := hsettled.none_waits
  rw [hlist] at hnone
  have hdepends : DependsOn Env.plain cancelledDraft (keyedTask "send" "send" .queued ["draft"])
      (keyedTask "draft" "draft" .cancelled []) :=
    ⟨by simp [cancelledDraft], "draft", by decide, rfl⟩
  exact hnone (keyedTask "send" "send" .queued ["draft"]) (by simp [cancelledDraft])
    ⟨rfl, _, .single hdepends, rfl⟩

end Ajenda.Runtime
