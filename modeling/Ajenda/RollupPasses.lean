import Ajenda.FailurePropagation
import Ajenda.MissionCompletion

/-!
# The passes of a rollup

One call of `maybeRollupMissionStatus` maps the tasks of its mission twice: it re-admits
dependents, then it blocks the impossible ones. Seen as nodes of the dependency graph the two
maps are the two halves of a pass of `FailurePropagation`, whose results carry over to every
rollup.
-/
namespace Ajenda.Runtime
open JsonValue KeyedRows Relation FailurePropagation

/-! ## The two maps -/

section Maps
variable (env : Env) (now : String) (siblings : List ExecutionTask)

def recoverPass : List ExecutionTask := siblings.map fun t =>
  if recoverable env siblings t then recoverDependent env now t else t

def redispatchPass : List ExecutionTask := siblings.map fun t =>
  if redispatchable env siblings t then redispatchDependent now t else t

def readmitPass : List ExecutionTask := redispatchPass env now (recoverPass env now siblings)

def blockPass : List ExecutionTask := siblings.map fun t =>
  if blockable env (failedNodeKeys siblings) t then
    blockDependent env (failedNodeKeys siblings) t else t

/-- `str(dep)` for every dependency. -/
def dependencyTexts (task : ExecutionTask) : List String :=
  (task.dependencyKeys.getD []).map (pyStr env)

end Maps

section Saves
variable {env : Env} {amb : Ambient} {s s' : Session} {missionId : String}

/-- Saving distinct stored tasks one after the other writes their rows and no other. -/
theorem foldlM_get {l : List ExecutionTask} {f : Session → ExecutionTask → Except Error Session}
    {g : ExecutionTask → ExecutionTask}
    (hsave : ∀ s s' t, t ∈ l → s.db.tasks.get t.id = some t → f s t = .ok s' →
      ∀ k, s'.db.tasks.get k = if k = t.id then some (g t) else s.db.tasks.get k)
    (hnodup : (l.map ExecutionTask.id).Nodup) (hget : ∀ t ∈ l, s.db.tasks.get t.id = some t)
    (h : l.foldlM f s = .ok s') : (∀ t ∈ l, s'.db.tasks.get t.id = some (g t)) ∧
      ∀ k, k ∉ l.map ExecutionTask.id → s'.db.tasks.get k = s.db.tasks.get k := by
  induction l generalizing s with
  | nil =>
    obtain rfl := Except.ok.inj h
    exact ⟨by simp, fun _ _ => rfl⟩
  | cons t l ih =>
    obtain ⟨s₁, hs₁, hrest⟩ := bind_eq_ok.1 h
    have hfirst := hsave s s₁ t (by simp) (hget t (by simp)) hs₁
    rw [List.map_cons, List.nodup_cons] at hnodup
    have hget₁ : ∀ u ∈ l, s₁.db.tasks.get u.id = some u := by
      intro u hu
      have hne : u.id ≠ t.id := fun heq => hnodup.1 (heq ▸ List.mem_map_of_mem hu)
      rw [hfirst, if_neg hne]
      exact hget u (by simp [hu])
    obtain ⟨hwritten, hothers⟩ :=
      ih (fun s s' u hu => hsave s s' u (by simp [hu])) hnodup.2 hget₁ hrest
    refine ⟨fun u hu => ?_, fun k hk => ?_⟩
    · rcases List.mem_cons.1 hu with rfl | hu
      · rw [hothers _ hnodup.1, hfirst, if_pos rfl]
      · exact hwritten u hu
    · rw [List.map_cons, List.mem_cons, not_or] at hk
      rw [hothers k hk.2, hfirst, if_neg hk.1]

/-- The tasks of a mission after a fold that saves the chosen ones. -/
theorem listForMission_map {p : ExecutionTask → Bool} {g : ExecutionTask → ExecutionTask}
    {f : Session → ExecutionTask → Except Error Session}
    (hsave : ∀ s s' t, s.db.tasks.get t.id = some t → f s t = .ok s' →
      ∀ k, s'.db.tasks.get k = if k = t.id then some (g t) else s.db.tasks.get k)
    (hkeys : s'.db.taskKeys = s.db.taskKeys)
    (h : ((s.db.listForMission missionId).filter p).foldlM f s = .ok s') :
    s'.db.listForMission missionId =
      (s.db.listForMission missionId).map fun t => if p t then g t else t := by
  obtain ⟨hwritten, hothers⟩ := foldlM_get (fun s s' t _ => hsave s s' t)
    ((List.filter_sublist.map _).nodup (listForMission_nodup s.db missionId))
    (fun t ht => get_of_listForMission (List.mem_of_mem_filter ht)) h
  rw [listForMission_eq_filterMap, hkeys, ← listForMission_keys, List.filterMap_map,
    ← List.filterMap_eq_map]
  apply List.filterMap_congr
  intro t ht
  have hrow := get_of_listForMission ht
  dsimp only [Function.comp_apply]
  by_cases hp : p t
  · rw [hwritten t (List.mem_filter.2 ⟨ht, hp⟩), if_pos hp]
  · rw [hothers, if_neg hp, hrow]
    rw [List.mem_map]
    rintro ⟨u, hu, hid⟩
    obtain ⟨hu, hpu⟩ := List.mem_filter.1 hu
    have hsame := get_of_listForMission hu
    rw [hid, hrow] at hsame
    exact hp (Option.some_inj.1 hsame ▸ hpu)

theorem listForMission_readmit {p : ExecutionTask → Bool} {g : ExecutionTask → ExecutionTask}
    (hid : ∀ t, (g t).id = t.id)
    (hcolumns : ∀ t, (g t).missionId = t.missionId ∧ (g t).tenantId = t.tenantId)
    (h : ((s.db.listForMission missionId).filter p).foldlM (readmitTask amb g) s = .ok s') :
    s'.db.listForMission missionId =
      (s.db.listForMission missionId).map fun t => if p t then g t else t := by
  refine listForMission_map (fun s s' t hget hs k => ?_)
    (missionSteps_taskKeys (readmit_missionSteps hid hcolumns h).1) h
  rw [(retry_other hs).1]
  exact get_saveTask hget (hid t) k

theorem listForMission_readmitDependents (h : readmitDependents env amb s missionId = .ok s') :
    s'.db.listForMission missionId = readmitPass env amb.now (s.db.listForMission missionId) := by
  obtain ⟨s₁, hrecover, hredispatch⟩ := bind_eq_ok.1 h
  have hfirst := listForMission_readmit (g := recoverDependent env amb.now) (fun _ => rfl)
    (fun _ => ⟨rfl, rfl⟩) hrecover
  have hsecond := listForMission_readmit (g := redispatchDependent amb.now) (fun _ => rfl)
    (fun _ => ⟨rfl, rfl⟩) hredispatch
  rw [hsecond, hfirst]
  rfl

theorem listForMission_blockDependents (env : Env) (s : Session) (missionId : String) :
    let failedKeys := failedNodeKeys (s.db.listForMission missionId)
    (((s.db.listForMission missionId).filter (blockable env failedKeys)).foldl
      (fun s t => s.saveTask (blockDependent env failedKeys t)) s).db.listForMission missionId =
      blockPass env (s.db.listForMission missionId) := by
  intro failedKeys
  refine listForMission_map (g := blockDependent env failedKeys)
    (f := fun s t => .ok (s.saveTask (blockDependent env failedKeys t)))
    (fun s s' t hget hs k => ?_)
    (missionSteps_taskKeys (blockDependents_missionSteps env s missionId _ failedKeys).1)
    List.foldlM_pure
  obtain rfl := Except.ok.inj hs
  exact get_saveTask (u := blockDependent env failedKeys t) hget rfl k

end Saves

/-! ## The tasks as nodes of the dependency graph -/

/-- The states between which a rollup moves tasks. -/
def ExecutionTaskState.movable : ExecutionTaskState → Bool
  | .planned | .queued | .claimed | .blocked => true
  | _ => false

/-- The part of a task by which others find it and it finds others, and the state of a task
that no rollup moves. -/
structure SameNode (t t' : ExecutionTask) : Prop where
  id : t'.id = t.id
  graphNodeKey : t'.graphNodeKey = t.graphNodeKey
  dependencyKeys : t'.dependencyKeys = t.dependencyKeys
  status : t'.status = t.status ∨ t.status.movable = true ∧ t'.status.movable = true

theorem SameNode.refl (t : ExecutionTask) : SameNode t t := ⟨rfl, rfl, rfl, .inl rfl⟩

theorem SameNode.trans {t₁ t₂ t₃ : ExecutionTask} (h : SameNode t₁ t₂) (g : SameNode t₂ t₃) :
    SameNode t₁ t₃ := by
  refine ⟨g.id.trans h.id, g.graphNodeKey.trans h.graphNodeKey,
    g.dependencyKeys.trans h.dependencyKeys, ?_⟩
  rcases h.status with h | ⟨h₁, h₂⟩ <;> rcases g.status with g | ⟨g₁, g₂⟩
  · exact .inl (g.trans h)
  · exact .inr ⟨h ▸ g₁, g₂⟩
  · exact .inr ⟨h₁, g.symm ▸ h₂⟩
  · exact .inr ⟨h₁, g₂⟩

/-- A state that no rollup moves is kept. -/
theorem SameNode.status_iff {t t' : ExecutionTask} (h : SameNode t t') (state : ExecutionTaskState)
    (hstate : state.movable = false) : t'.status = state ↔ t.status = state := by
  rcases h.status with h | ⟨h₁, h₂⟩
  · rw [h]
  · constructor
    · rintro rfl
      rw [h₂] at hstate
      cases hstate
    · rintro rfl
      rw [h₁] at hstate
      cases hstate

def phaseOf (task : ExecutionTask) : Phase :=
  if task.status = .planned ∨ task.status = .queued ∨ task.status = .claimed then .waiting
  else if task.status = .blocked ∧ task.blockedByDependencyFailure.isSome then .held
  else if task.status.failedish then .failed
  else .inert

/-- The task as a node of the graph of these siblings. -/
def nodeOf (env : Env) (siblings : List ExecutionTask) (task : ExecutionTask) :
    Node String String where
  id := task.id
  key := task.graphNodeKey
  deps := dependencyTexts env task
  ready := dependenciesCompleted env siblings task
  phase := phaseOf task

section Nodes
variable {env : Env} {now : String} {siblings siblings' : List ExecutionTask}

theorem nodeTask_rel (h : List.Forall₂ SameNode siblings siblings') (key : String) :
    Option.Rel SameNode (nodeTask siblings key) (nodeTask siblings' key) := by
  refine Rows.forall₂_find? (fun t t' ht => ?_) (List.rel_reverse h)
  rw [ht.graphNodeKey]

theorem dependenciesCompleted_iff_texts {t : ExecutionTask} :
    dependenciesCompleted env siblings t = true ↔ dependencyTexts env t ≠ [] ∧
      ∀ key ∈ dependencyTexts env t, ∃ dependency, nodeTask siblings key = some dependency ∧
        dependency.status = .completed := by
  unfold dependenciesCompleted dependencyTexts
  cases t.dependencyKeys with
  | none => simp
  | some keys =>
    cases keys with
    | nil => simp
    | cons key keys =>
      simp only [List.all_cons, Bool.and_eq_true, List.all_eq_true, Option.getD_some,
        List.map_cons, List.forall_mem_cons, List.forall_mem_map, ne_eq, reduceCtorEq,
        not_false_eq_true, true_and]
      refine and_congr ?_ (forall₂_congr fun k _ => ?_)
      · cases nodeTask siblings (pyStr env key) <;> simp
      · cases nodeTask siblings (pyStr env k) <;> simp

theorem dependencyTexts_same {t t' : ExecutionTask} (h : SameNode t t') :
    dependencyTexts env t' = dependencyTexts env t := by
  rw [dependencyTexts, h.dependencyKeys, dependencyTexts]

/-- A rollup does not change which dependencies are completed. -/
theorem dependenciesCompleted_same (h : List.Forall₂ SameNode siblings siblings')
    {t t' : ExecutionTask} (ht : SameNode t t') :
    dependenciesCompleted env siblings' t' = dependenciesCompleted env siblings t := by
  have hfiled : ∀ key, (∃ dependency, nodeTask siblings' key = some dependency ∧
      dependency.status = .completed) ↔ ∃ dependency, nodeTask siblings key = some dependency ∧
        dependency.status = .completed := by
    intro key
    generalize nodeTask siblings key = u, nodeTask siblings' key = u', nodeTask_rel h key = hrel
    cases hrel with
    | none => simp
    | some hsame => simpa using hsame.status_iff .completed rfl
  rw [Bool.eq_iff_iff, dependenciesCompleted_iff_texts, dependenciesCompleted_iff_texts,
    dependencyTexts_same ht]
  simp only [hfiled]

theorem mem_of_forall₂ {α β : Type*} {R : α → β → Prop} {l : List α} {l' : List β}
    (h : List.Forall₂ R l l') :
    (∀ a ∈ l, ∃ b ∈ l', R a b) ∧ ∀ b ∈ l', ∃ a ∈ l, R a b := by
  induction h with
  | nil => simp
  | cons hab _ ih =>
    constructor
    · simp only [List.mem_cons, forall_eq_or_imp, exists_eq_or_imp]
      exact ⟨.inl hab, fun a ha => .inr (ih.1 a ha)⟩
    · simp only [List.mem_cons, forall_eq_or_imp, exists_eq_or_imp]
      exact ⟨.inl hab, fun b hb => .inr (ih.2 b hb)⟩

theorem phaseOf_blocked {t : ExecutionTask} (h : t.status = .blocked)
    (hmark : t.blockedByDependencyFailure.isSome = true) : phaseOf t = .held := by
  simp [phaseOf, h, hmark]

theorem phaseOf_waiting {t : ExecutionTask} : phaseOf t = .waiting ↔
    t.status = .planned ∨ t.status = .queued ∨ t.status = .claimed := by
  unfold phaseOf
  split_ifs with h <;> simp [h]

theorem phaseOf_held {t : ExecutionTask} : phaseOf t = .held ↔
    t.status = .blocked ∧ t.blockedByDependencyFailure.isSome = true := by
  unfold phaseOf
  split_ifs with hwaiting hheld
  · simp only [false_iff, not_and]
    intro hblocked
    simp [hblocked] at hwaiting
  · simp [hheld]
  · simp [hheld]
  · simp [hheld]

theorem phaseOf_failing (t : ExecutionTask) : (phaseOf t).failing = t.status.failedish := by
  unfold phaseOf
  cases t.status <;> simp [ExecutionTaskState.failedish, Phase.failing]
  split_ifs <;> rfl

theorem recoverable_iff {t : ExecutionTask} : recoverable env siblings t = true ↔
    phaseOf t = .held ∧ dependenciesCompleted env siblings t = true := by
  simp [recoverable, phaseOf_held]

theorem failing_iff {k : String} : Failing (siblings'.map (nodeOf env siblings)) k ↔
    k ∈ failedNodeKeys siblings' := by
  simp only [Failing, failedNodeKeys, List.mem_filterMap, List.mem_filter, List.mem_map,
    exists_exists_and_eq_and, nodeOf, phaseOf_failing, and_assoc]

theorem impossible_iff {t : ExecutionTask} :
    Impossible (siblings'.map (nodeOf env siblings)) (nodeOf env siblings t) ↔
      blockable env (failedNodeKeys siblings') t = true := by
  have hdeps : (failedDependencies env (failedNodeKeys siblings') t).isEmpty = false ↔
      ∃ d ∈ dependencyTexts env t, d ∈ failedNodeKeys siblings' := by
    rw [List.isEmpty_eq_false_iff_exists_mem]
    unfold failedDependencies dependencyTexts
    cases t.dependencyKeys <;> simp
  simp only [Impossible, failing_iff, blockable, Bool.and_eq_true, Bool.or_eq_true,
    decide_eq_true_eq, Bool.not_eq_true', hdeps]
  rw [show (nodeOf env siblings t).phase = phaseOf t from rfl, phaseOf_waiting, or_assoc]
  rfl

theorem nodeOf_same {t t' : ExecutionTask} (h : SameNode t t') :
    nodeOf env siblings t' = { nodeOf env siblings t with phase := phaseOf t' } := by
  have hready : dependenciesCompleted env siblings t' = dependenciesCompleted env siblings t :=
    dependenciesCompleted_same (List.forall₂_same.2 fun u _ => .refl u) h
  simp only [nodeOf, h.id, h.graphNodeKey, dependencyTexts_same h, hready]

end Nodes

/-! ## A call is a pass -/

section Moves
variable {env : Env} {now : String} {siblings origin : List ExecutionTask} {t : ExecutionTask}

theorem recoverDependent_same (h : t.status = .blocked) :
    SameNode t (recoverDependent env now t) := by
  refine ⟨rfl, ?_, ?_, Or.inr ⟨by rw [h]; rfl, rfl⟩⟩
  · simp [ExecutionTask.graphNodeKey, recoverDependent, Fields.get_set, Fields.get_pop]
  · simp [ExecutionTask.dependencyKeys, recoverDependent, Fields.get_set, Fields.get_pop]

theorem redispatchDependent_same (t : ExecutionTask) : SameNode t (redispatchDependent now t) := by
  refine ⟨rfl, ?_, ?_, Or.inl rfl⟩
  · simp [ExecutionTask.graphNodeKey, redispatchDependent, Fields.get_set, Fields.get_pop]
  · simp [ExecutionTask.dependencyKeys, redispatchDependent, Fields.get_set, Fields.get_pop]

theorem blockDependent_same {failedKeys : List String}
    (h : t.status = .planned ∨ t.status = .queued ∨ t.status = .claimed) :
    SameNode t (blockDependent env failedKeys t) := by
  refine ⟨rfl, ?_, ?_, ?_⟩
  · simp [ExecutionTask.graphNodeKey, blockDependent, Fields.get_set]
  · simp [ExecutionTask.dependencyKeys, blockDependent, Fields.get_set]
  · rcases h with h | h | h
    all_goals exact Or.inr ⟨by rw [h]; rfl, rfl⟩

theorem phaseOf_blockDependent {failedKeys : List String}
    (h : blockable env failedKeys t = true) :
    phaseOf (blockDependent env failedKeys t) = .held := by
  simp only [blockable, Bool.and_eq_true, Bool.not_eq_true', List.isEmpty_eq_false_iff] at h
  refine phaseOf_blocked rfl ?_
  have hkeys : (failedDependencies env failedKeys t).dedup.insertionSort (· ≤ ·) ≠ [] := by
    rw [Ne, ← List.length_eq_zero_iff, List.length_insertionSort, List.length_eq_zero_iff,
      List.dedup_eq_nil]
    exact h.2
  obtain ⟨key, keys, heq⟩ := List.exists_cons_of_ne_nil hkeys
  simp [ExecutionTask.blockedByDependencyFailure, blockDependent, Fields.get_set, heq, Fields.get]

theorem recoverPass_same : List.Forall₂ SameNode siblings (recoverPass env now siblings) := by
  refine List.forall₂_map_right_iff.2 (List.forall₂_same.2 fun t _ => ?_)
  split_ifs with h
  · exact recoverDependent_same (recoverable_status h)
  · exact .refl t

theorem redispatchPass_same : List.Forall₂ SameNode siblings (redispatchPass env now siblings) := by
  refine List.forall₂_map_right_iff.2 (List.forall₂_same.2 fun t _ => ?_)
  split_ifs
  · exact redispatchDependent_same t
  · exact .refl t

theorem blockPass_same : List.Forall₂ SameNode siblings (blockPass env siblings) := by
  refine List.forall₂_map_right_iff.2 (List.forall₂_same.2 fun t _ => ?_)
  split_ifs with h
  · exact blockDependent_same (blockable_status h)
  · exact .refl t

theorem sameNodes_trans {l₁ l₂ l₃ : List ExecutionTask} (h : List.Forall₂ SameNode l₁ l₂)
    (g : List.Forall₂ SameNode l₂ l₃) : List.Forall₂ SameNode l₁ l₃ := by
  rw [List.forall₂_iff_get] at *
  refine ⟨h.1.trans g.1, fun i h₁ h₃ => ?_⟩
  have h₂ : i < l₂.length := h.1 ▸ h₁
  exact (h.2 i h₁ h₂).trans (g.2 i h₂ h₃)

theorem readmitPass_same : List.Forall₂ SameNode siblings (readmitPass env now siblings) :=
  sameNodes_trans recoverPass_same redispatchPass_same

theorem nodeOf_recoverPass (hsame : List.Forall₂ SameNode origin siblings) :
    (recoverPass env now siblings).map (nodeOf env origin) =
      admitted (siblings.map (nodeOf env origin)) := by
  rw [recoverPass, admitted, List.map_map, List.map_map]
  refine List.map_congr_left fun t _ => ?_
  have hready : dependenciesCompleted env siblings t = dependenciesCompleted env origin t :=
    dependenciesCompleted_same hsame (.refl t)
  have hfreed : recoverable env siblings t = true ↔
      (nodeOf env origin t).phase = .held ∧ (nodeOf env origin t).ready = true := by
    rw [recoverable_iff, hready]
    rfl
  dsimp only [Function.comp_apply]
  split_ifs with h
  · have hphase : phaseOf (recoverDependent env now t) = .waiting :=
      phaseOf_waiting.2 (Or.inr (Or.inl rfl))
    rw [nodeOf_same (recoverDependent_same (recoverable_status h)), hphase, Node.freed,
      if_pos (hfreed.1 h)]
  · rw [Node.freed, if_neg (hfreed.not.1 h)]

theorem nodeOf_redispatchPass : (redispatchPass env now siblings).map (nodeOf env origin) =
    siblings.map (nodeOf env origin) := by
  rw [redispatchPass, List.map_map]
  refine List.map_congr_left fun t _ => ?_
  dsimp only [Function.comp_apply]
  split_ifs with h
  · have hphase : phaseOf (redispatchDependent now t) = phaseOf t := by
      have hqueued := redispatchable_status h
      rw [phaseOf_waiting.2 (Or.inr (Or.inl hqueued)), phaseOf_waiting]
      exact Or.inr (Or.inl hqueued)
    rw [nodeOf_same (redispatchDependent_same t), hphase]
    rfl
  · rfl

theorem nodeOf_readmitPass (hsame : List.Forall₂ SameNode origin siblings) :
    (readmitPass env now siblings).map (nodeOf env origin) =
      admitted (siblings.map (nodeOf env origin)) := by
  rw [readmitPass, nodeOf_redispatchPass, nodeOf_recoverPass hsame]

theorem nodeOf_blockPass : (blockPass env siblings).map (nodeOf env origin) =
    held (siblings.map (nodeOf env origin)) := by
  rw [blockPass, held, List.map_map, List.map_map]
  refine List.map_congr_left fun t _ => ?_
  dsimp only [Function.comp_apply]
  split_ifs with h
  · rw [nodeOf_same (blockDependent_same (blockable_status h)), phaseOf_blockDependent h,
      Node.hold, if_pos (impossible_iff.2 h)]
  · rw [Node.hold, if_neg (impossible_iff.not.2 h)]

end Moves

/-- One call of `maybe_rollup_mission_status`; the flag says that it calls itself again. -/
def rollupCall (env : Env) (amb : Ambient) (s : Session) (task : ExecutionTask) :
    Except Error (Session × Bool) :=
  match getMissionForTenant s amb.now task.missionId task.tenantId with
  | none => .ok (s, false)
  | some (s, mission) =>
    if mission.status.terminal then .ok (s, false)
    else if (s.db.listForMission task.missionId).isEmpty then .ok (s, false)
    else do
      let s ← readmitDependents env amb s task.missionId
      let siblings := s.db.listForMission task.missionId
      let failedKeys := failedNodeKeys siblings
      let impossible := siblings.filter (blockable env failedKeys)
      if impossible.isEmpty then
        if siblings.any fun t => !t.status.terminal then pure (markRunning s mission, false)
        else do
          let s ← finishMission env amb.now s mission siblings
          pure (s, false)
      else pure (impossible.foldl (fun s t => s.saveTask (blockDependent env failedKeys t)) s, true)

section Calls
variable {env : Env} {amb : Ambient} {s s' : Session} {task : ExecutionTask}

theorem maybeRollupMissionStatus_succ (env : Env) (amb : Ambient) (fuel : ℕ) (s : Session)
    (task : ExecutionTask) : maybeRollupMissionStatus env amb (fuel + 1) s task = (do
      let (s, again) ← rollupCall env amb s task
      if again then maybeRollupMissionStatus env amb fuel s task else pure s) := by
  rw [maybeRollupMissionStatus, rollupCall]
  cases getMissionForTenant s amb.now task.missionId task.tenantId with
  | none => rfl
  | some loaded =>
    obtain ⟨s₁, mission⟩ := loaded
    dsimp only
    split_ifs
    · rfl
    · rfl
    · cases readmitDependents env amb s₁ task.missionId with
      | error e => rfl
      | ok s₂ =>
        simp only [bind, Except.bind]
        split_ifs
        · rfl
        · cases finishMission env amb.now s₂ mission (s₂.db.listForMission task.missionId) <;> rfl
        · rfl

variable (env amb) in
/-- A call without a mission under way has nothing to do; a closed mission stays closed. -/
theorem rollupCall_idle (h : ¬Underway task.tenantId task.missionId s.db) :
    ∃ s', rollupCall env amb s task = .ok (s', false) ∧ s'.db.tasks = s.db.tasks ∧
      ((∃ m, s.db.missions.get task.missionId = some m ∧ m.status.terminal = true) →
        ∃ m, s'.db.missions.get task.missionId = some m ∧ m.status.terminal = true) := by
  unfold rollupCall
  split
  · exact ⟨s, rfl, rfl, id⟩
  next s₁ mission hload =>
    obtain ⟨stored, hrow, htenant, rfl, hid, rfl⟩ := getMissionForTenant_eq_some hload
    have hterminal : (reconcileReviewHold s.db amb.now stored).status.terminal = true := by
      by_contra hopen
      rw [Bool.not_eq_true] at hopen
      refine h ⟨stored, hrow, htenant, ?_⟩
      by_contra hstored
      rw [Bool.not_eq_false] at hstored
      rcases reconcileReviewHold_status s.db amb.now stored with hst | ⟨hst, -⟩
      · rw [hst, hstored] at hopen
        cases hopen
      · rw [hst] at hstored
        cases hstored
    rw [if_pos hterminal]
    exact ⟨_, rfl, rfl, fun _ => ⟨_, get_saveMission_row hrow hid, hterminal⟩⟩

/-- A rollup without a mission under way leaves the tasks as they are. -/
theorem rollup_idle {fuel : ℕ} (hunder : ¬Underway task.tenantId task.missionId s.db)
    (h : maybeRollupMissionStatus env amb fuel s task = .ok s') :
    s'.db.listForMission task.missionId = s.db.listForMission task.missionId ∧
      ((∃ m, s.db.missions.get task.missionId = some m ∧ m.status.terminal = true) →
        ∃ m, s'.db.missions.get task.missionId = some m ∧ m.status.terminal = true) := by
  obtain ⟨s₁, hcall, htasks, hclosed⟩ := rollupCall_idle env amb hunder
  cases fuel with
  | zero => cases h
  | succ fuel =>
    rw [maybeRollupMissionStatus_succ, hcall] at h
    obtain rfl := Except.ok.inj h
    refine ⟨?_, hclosed⟩
    rw [Db.listForMission, htasks]
    rfl

/-- A call on a mission under way re-admits, and starts over if and only if it blocks a task. -/
theorem rollupCall_pass (hunder : Underway task.tenantId task.missionId s.db) {again : Bool}
    (h : rollupCall env amb s task = .ok (s', again)) :
    let readmitted := readmitPass env amb.now (s.db.listForMission task.missionId)
    (again = true ∧ (∃ t ∈ readmitted, blockable env (failedNodeKeys readmitted) t = true) ∧
      s'.db.listForMission task.missionId = blockPass env readmitted ∧
      Underway task.tenantId task.missionId s'.db) ∨
    (again = false ∧ (∀ t ∈ readmitted, blockable env (failedNodeKeys readmitted) t = false) ∧
      s'.db.listForMission task.missionId = readmitted) := by
  obtain ⟨mission, hrow, htenant, hopen⟩ := hunder
  intro readmitted
  unfold rollupCall at h
  rw [getMissionForTenant_of_row hrow htenant] at h
  dsimp only at h
  set held := reconcileReviewHold s.db amb.now mission
  have hheldOpen : held.status.terminal = false := reconcileReviewHold_open hopen
  have hheldId : held.id = task.missionId :=
    (reconcileReviewHold_columns _ _ _).1.trans (Rows.key_of_get hrow)
  have hheldTenant : held.tenantId = task.tenantId :=
    (reconcileReviewHold_columns _ _ _).2.trans htenant
  have hlist : (s.saveMission held).db.listForMission task.missionId =
      s.db.listForMission task.missionId := rfl
  rw [if_neg (by simp [hheldOpen])] at h
  split_ifs at h with hempty
  · obtain ⟨rfl, rfl⟩ := Prod.mk.inj (Except.ok.inj h)
    rw [hlist, List.isEmpty_iff] at hempty
    have hreadmitted : readmitted = [] := by
      simp [readmitted, hempty, readmitPass, recoverPass, redispatchPass]
    exact Or.inr ⟨rfl, by simp [hreadmitted], by rw [hlist, hempty, hreadmitted]⟩
  · obtain ⟨s₂, hreadmission, hrest⟩ := bind_eq_ok.1 h
    have hpass : s₂.db.listForMission task.missionId = readmitted := by
      rw [listForMission_readmitDependents hreadmission, hlist]
    split_ifs at hrest with hnone hany
    · obtain ⟨rfl, rfl⟩ := Prod.mk.inj (Except.ok.inj hrest)
      rw [List.isEmpty_iff, List.filter_eq_nil_iff, hpass] at hnone
      refine Or.inr ⟨rfl, fun t ht => by simpa using hnone t ht, ?_⟩
      rw [Db.listForMission, markRunning_tasks]
      exact hpass
    · obtain ⟨s₃, hfinish, hs₃⟩ := bind_eq_ok.1 hrest
      obtain ⟨rfl, rfl⟩ := Prod.mk.inj (Except.ok.inj hs₃)
      obtain ⟨m, rfl, -, -, -⟩ := finishMission_eq_ok hheldOpen hfinish
      rw [List.isEmpty_iff, List.filter_eq_nil_iff, hpass] at hnone
      exact Or.inr ⟨rfl, fun t ht => by simpa using hnone t ht, hpass⟩
    · obtain ⟨rfl, rfl⟩ := Prod.mk.inj (Except.ok.inj hrest)
      have hblocked := listForMission_blockDependents env s₂ task.missionId
      obtain ⟨t, ht⟩ := List.exists_mem_of_ne_nil _ fun hnil => hnone (List.isEmpty_iff.2 hnil)
      rw [List.mem_filter, hpass] at ht
      refine Or.inl ⟨rfl, ⟨t, ht⟩, ?_, ?_⟩
      · rw [← hpass]
        exact hblocked
      · rw [Underway, (blockDependents_missionSteps env s₂ _ _ _).2,
          (readmitDependents_missionSteps hreadmission).2]
        exact ⟨held, get_saveMission_row hrow hheldId, hheldTenant, hheldOpen⟩

end Calls

end Ajenda.Runtime
