import Ajenda.KpiAttainment
import Ajenda.ExperienceEvaluation
import Ajenda.Fallible

/-!
# The evaluation of a goal

`evaluate_goal_progress` with the comparison of two states and all it reports. A required KPI is
judged by the last KPI of the goal with its id; `ACHIEVED` is sound unless such a namesake hides a
KPI that misses its target.
-/
namespace Ajenda.GoalEvaluation
open GoalProgress (Kpi KpiDirection KpiStatus GoalProgressStatus evalById requiredPairs movesAgainst)
open KpiAttainment (Arithmetic KpiEvaluation evaluateKpi)
open Experience (BusinessObjectRef Datetime EvaluationError GoalSemanticSignature sortedSet
  KpiSemanticSignature canonicalKpis nonEmpty orderedUnique)

section Records

structure Goal where
  goalId : String
  objectiveKey : Option String
  subjectRefs : List BusinessObjectRef
  deriving DecidableEq

/-- A state of a subject; an attribute holds any value that can be compared. -/
structure BusinessStateSnapshot (V : Type) where
  snapshotId : String
  subjectRef : BusinessObjectRef
  capturedAt : Datetime
  attributes : List (String × V)
  evidenceIds : List String
  keys : (attributes.map Prod.fst).Nodup

structure BusinessEvent where
  eventId : String

inductive ChangeType
  | added | removed | changed
  deriving DecidableEq

structure StateAttributeChange (V : Type) where
  key : String
  changeType : ChangeType
  before : Option V
  after : Option V
  deriving DecidableEq

structure StateComparison (V : Type) where
  earlierSnapshotId : String
  laterSnapshotId : String
  changes : List (StateAttributeChange V)
  explanation : String
  deriving DecidableEq

inductive GapKind
  | performance | evidence | information
  deriving DecidableEq

structure ProgressGap where
  kind : GapKind
  code : String
  message : String
  kpiId : Option String := none
  evidenceId : Option String := none
  deriving DecidableEq

structure EvaluationResult (V : Type) where
  evaluationId : String
  subjectRefs : List BusinessObjectRef
  goalId : Option String
  goalSemanticSignature : GoalSemanticSignature
  status : GoalProgressStatus
  confidence : ℚ
  kpiEvaluations : List KpiEvaluation
  stateChanges : Option (StateComparison V)
  progressGaps : List ProgressGap
  evidenceGaps : List ProgressGap
  supportingEvidenceIds : List String
  evaluatedAt : Datetime
  explanations : List String
  recentEventIds : List String
  deriving DecidableEq

/-- What an evaluation is asked with besides the goal and its KPIs. -/
structure Request (V : Type) where
  currentState : Option (BusinessStateSnapshot V) := none
  previousState : Option (BusinessStateSnapshot V) := none
  events : List BusinessEvent := []
  evidenceIds : List String := []
  missingEvidenceCodes : List String := []
  evaluationId : Option String := none
  evaluatedAt : Option Datetime := none

/-- The id and the time an evaluation takes when it is given none. -/
structure Fresh where
  evaluationId : String
  now : Datetime

inductive GoalError
  | differentSubjects (earlier later : BusinessObjectRef)
  | reversedChronology (earlier later : Datetime)
  | naiveAndAwareTimes
  | foreignKpi
  deriving DecidableEq

end Records

section Evaluation
variable {V : Type} [DecidableEq V] (A : Arithmetic)

def BusinessStateSnapshot.attribute (s : BusinessStateSnapshot V) (key : String) : Option V :=
  (s.attributes.find? (·.1 = key)).map Prod.snd

def attributeChange (earlier later : BusinessStateSnapshot V) (key : String) :
    Option (StateAttributeChange V) :=
  match earlier.attribute key, later.attribute key with
  | none, after => some ⟨key, .added, none, after⟩
  | before, none => some ⟨key, .removed, before, none⟩
  | some before, some after =>
    if before = after then none else some ⟨key, .changed, some before, some after⟩

/-- `compare_state_snapshots`. -/
def compareStateSnapshots (earlier later : BusinessStateSnapshot V) :
    Except GoalError (StateComparison V) :=
  if earlier.subjectRef ≠ later.subjectRef then
    .error (.differentSubjects earlier.subjectRef later.subjectRef)
  else
    match later.capturedAt.lt earlier.capturedAt with
    | .error _ => .error .naiveAndAwareTimes
    | .ok true => .error (.reversedChronology earlier.capturedAt later.capturedAt)
    | .ok false =>
      let changes := (sortedSet ((earlier.attributes ++ later.attributes).map Prod.fst)).filterMap
        (attributeChange earlier later)
      .ok {
        earlierSnapshotId := earlier.snapshotId
        laterSnapshotId := later.snapshotId
        changes := changes
        explanation :=
          if changes = [] then "No attribute differences"
          else toString changes.length ++ " attribute change(s) from " ++ earlier.snapshotId ++
            " → " ++ later.snapshotId }

def semanticDirection : KpiDirection → Experience.KpiDirection
  | .increase => .increase
  | .decrease => .decrease
  | .maintain => .maintain

/-- `kpi_semantic_signature`. -/
def kpiSemanticSignature (k : Kpi) : KpiSemanticSignature :=
  ⟨k.metric, semanticDirection k.direction, nonEmpty (some (Runtime.strip k.unit))⟩

/-- `goal_semantic_signature`. -/
def goalSemanticSignature (goal : Goal) (kpis : List Kpi) :
    Except GoalError GoalSemanticSignature :=
  if kpis.any (·.goalId ≠ goal.goalId) then .error .foreignKpi
  else .ok ⟨goal.objectiveKey, canonicalKpis (kpis.map kpiSemanticSignature)⟩

def evidenceGap (code : String) : ProgressGap :=
  { kind := .evidence, code := code, message := "Missing evidence: " ++ code }

/-- What a required KPI leaves open. -/
def progressGap (e : KpiEvaluation) : Option ProgressGap :=
  if e.status = .insufficientData then
    some {
      kind := .information
      code := "kpi_insufficient:" ++ e.kpiId
      message := e.explanation
      kpiId := some e.kpiId }
  else if e.targetReached = some false then
    some {
      kind := .performance
      code := "kpi_gap:" ++ e.kpiId
      message := e.explanation
      kpiId := some e.kpiId }
  else none

def goalScoped (goal : Goal) (kpis : List Kpi) : List Kpi := kpis.filter (·.goalId = goal.goalId)

/-- A status, the confidence in it and what is said about it. -/
structure Verdict where
  status : GoalProgressStatus
  confidence : ℚ
  explanations : List String
  deriving DecidableEq

/-- The verdict on required KPIs that are measured and do not all reach their targets. -/
def behindVerdict (required : List (Kpi × Kpi)) (progressGaps evidenceGaps : List ProgressGap) :
    Verdict :=
  let behind := required.filter fun p => (evaluateKpi A p.2).targetReached ≠ some true
  let movingAgainst := behind.any fun p => movesAgainst A.toDoubles p.1 p.2
  let anyImproving := behind.any fun p =>
    !movesAgainst A.toDoubles p.1 p.2 && (evaluateKpi A p.2).improving = some true
  let anyMeasuredChange := behind.any fun p => (p.1.change A.toDoubles).any (· ≠ 0)
  if movingAgainst then
    ⟨.offTrack, 75 / 100, ["Required KPI moved against its target direction"]⟩
  else if anyImproving ∧ progressGaps ≠ [] then
    ⟨.atRisk, 65 / 100, ["Progress exists but required gaps remain"]⟩
  else if anyImproving ∧ evidenceGaps = [] then
    ⟨.onTrack, 7 / 10, ["Required metrics improving without evidence blockers"]⟩
  else if progressGaps ≠ [] ∧ !anyMeasuredChange then
    ⟨.atRisk, 55 / 100, ["Required gaps present; no movement against target was measured " ++
      "(flat or unknown trend is not regression)"]⟩
  else if progressGaps ≠ [] then
    ⟨.atRisk, 55 / 100,
      ["Required gaps remain; measured change did not move farther from target"]⟩
  else ⟨.atRisk, 55 / 100, ["Gaps remain; improvement not fully established"]⟩

/-- The verdict before evidence gaps are held against it. -/
def kpiVerdict (goal : Goal) (kpis : List Kpi) (progressGaps evidenceGaps : List ProgressGap) :
    Verdict :=
  let required := requiredPairs goal.goalId kpis
  if goalScoped goal kpis = [] then
    ⟨.insufficientData, 3 / 10, ["No KPIs scoped to goal_id=" ++ goal.goalId ++
      "; foreign or empty KPI list cannot drive status"]⟩
  else if required = [] then
    ⟨.insufficientData, 3 / 10, ["No required KPIs matched goal_id=" ++ goal.goalId ++
      "; cannot evaluate progress"]⟩
  else if required.any fun p => (evaluateKpi A p.2).status = .insufficientData then
    ⟨.insufficientData, 4 / 10, ["One or more required KPIs lack current or target values"]⟩
  else if required.all fun p => (evaluateKpi A p.2).targetReached = some true then
    ⟨.achieved, 9 / 10, ["All required KPIs meet targets"]⟩
  else behindVerdict A required progressGaps evidenceGaps

def Verdict.withEvidence (v : Verdict) (evidenceGaps : List ProgressGap) : Verdict :=
  if evidenceGaps ≠ [] ∧ (v.status = .onTrack ∨ v.status = .achieved) then
    ⟨.atRisk, min v.confidence (55 / 100),
      v.explanations ++ ["Evidence gaps prevent full confidence in status"]⟩
  else v

/-- The subjects of the goal and of the current state. -/
def subjectRefs (goal : Goal) (current : Option (BusinessStateSnapshot V)) :
    List BusinessObjectRef :=
  match current with
  | none => goal.subjectRefs
  | some state =>
    if state.subjectRef ∈ goal.subjectRefs then goal.subjectRefs
    else goal.subjectRefs ++ [state.subjectRef]

def compareStates (r : Request V) : Except GoalError (Option (StateComparison V)) :=
  match r.previousState, r.currentState with
  | some previous, some current => (compareStateSnapshots previous current).map some
  | _, _ => .ok none

/-- `evaluate_goal_progress`. -/
def evaluateGoalProgress (fresh : Fresh) (goal : Goal) (kpis : List Kpi) (r : Request V) :
    Except GoalError (EvaluationResult V) := do
  let evidenceGaps := r.missingEvidenceCodes.map evidenceGap
  let progressGaps := (requiredPairs goal.goalId kpis).filterMap fun p =>
    progressGap (evaluateKpi A p.2)
  let stateChanges ← compareStates r
  let verdict := (kpiVerdict A goal kpis progressGaps evidenceGaps).withEvidence evidenceGaps
  let signature ← goalSemanticSignature goal (goalScoped goal kpis)
  return {
    evaluationId := (nonEmpty r.evaluationId).getD fresh.evaluationId
    subjectRefs := subjectRefs goal r.currentState
    goalId := some goal.goalId
    goalSemanticSignature := signature
    status := verdict.status
    confidence := A.round verdict.confidence 4
    kpiEvaluations := (goalScoped goal kpis).map (evaluateKpi A)
    stateChanges := stateChanges
    progressGaps := progressGaps
    evidenceGaps := evidenceGaps
    supportingEvidenceIds := orderedUnique
      (r.evidenceIds ++ (r.currentState.map (·.evidenceIds)).getD [])
    evaluatedAt := r.evaluatedAt.getD fresh.now
    explanations := (stateChanges.map (·.explanation)).toList ++ verdict.explanations
    recentEventIds := r.events.map (·.eventId) }

end Evaluation

section Soundness
variable {V : Type} [DecidableEq V] {A : Arithmetic} {fresh : Fresh} {goal : Goal} {kpis : List Kpi}
  {r : Request V} {result : EvaluationResult V} {k : Kpi}

/-- The KPI is measured and reaches its target. -/
def Reached (A : Arithmetic) (k : Kpi) : Prop :=
  k.currentValue ≠ none ∧ k.targetValue ≠ none ∧ (evaluateKpi A k).targetReached = some true

theorem targetReached_iff : (evaluateKpi A k).targetReached = some true ↔ Reached A k := by
  refine ⟨fun h => ?_, fun h => h.2.2⟩
  cases hc : k.currentValue with
  | none => simp [evaluateKpi, hc] at h
  | some current =>
    cases ht : k.targetValue with
    | none => simp [evaluateKpi, hc, ht] at h
    | some target => exact ⟨by simp [hc], by simp [ht], h⟩

theorem measured_of_reached (h : Reached A k) : (evaluateKpi A k).status ≠ .insufficientData := by
  have hprogress := KpiAttainment.evaluateKpi_progress A k
  have hreached := congrArg (·.targetReached) hprogress
  have hstatus := congrArg (·.status) hprogress
  simp only [KpiEvaluation.progress] at hreached hstatus
  rw [hstatus]
  intro hnone
  rw [GoalProgress.evaluateKpi_undecided.2 hnone, h.2.2] at hreached
  cases hreached

theorem behindVerdict_status (required : List (Kpi × Kpi)) (progressGaps evidenceGaps) :
    (behindVerdict A required progressGaps evidenceGaps).status ≠ .achieved := by
  unfold behindVerdict
  simp only
  split_ifs <;> simp

theorem requiredPairs_scoped (h : goalScoped goal kpis = []) : requiredPairs goal.goalId kpis = [] := by
  simp only [goalScoped] at h
  simp [requiredPairs, h]

/-- Without evidence gaps a goal is achieved when every required KPI is, as read under its id. -/
theorem kpiVerdict_achieved (progressGaps evidenceGaps) :
    (kpiVerdict A goal kpis progressGaps evidenceGaps).status = .achieved ↔
      requiredPairs goal.goalId kpis ≠ [] ∧
        ∀ p ∈ requiredPairs goal.goalId kpis, Reached A p.2 := by
  unfold kpiVerdict
  simp only
  split_ifs with hscoped hrequired hmissing hall
  · simp [requiredPairs_scoped hscoped]
  · simp [hrequired]
  · obtain ⟨p, hp, hstatus⟩ := List.any_eq_true.1 hmissing
    simp only [false_iff, not_and]
    exact fun _ hreached => measured_of_reached (hreached p hp) (by simpa using hstatus)
  · simp only [true_iff]
    refine ⟨hrequired, fun p hp => targetReached_iff.1 ?_⟩
    simpa using List.all_eq_true.1 hall p hp
  · simp only [behindVerdict_status, false_iff, not_and]
    refine fun _ hreached => hall (List.all_eq_true.2 fun p hp => ?_)
    simpa using targetReached_iff.2 (hreached p hp)

theorem withEvidence_achieved (v : Verdict) (evidenceGaps) :
    (v.withEvidence evidenceGaps).status = .achieved ↔ evidenceGaps = [] ∧ v.status = .achieved := by
  unfold Verdict.withEvidence
  split_ifs with h
  · simp [h.1]
  · constructor
    · intro hstatus
      exact ⟨by_contra fun hne => h ⟨hne, .inr hstatus⟩, hstatus⟩
    · exact And.right

theorem evaluateGoalProgress_ok (h : evaluateGoalProgress A fresh goal kpis r = .ok result) :
    result.evidenceGaps = r.missingEvidenceCodes.map evidenceGap ∧
      result.progressGaps = (requiredPairs goal.goalId kpis).filterMap
        (fun p => progressGap (evaluateKpi A p.2)) ∧
      result.kpiEvaluations = (goalScoped goal kpis).map (evaluateKpi A) ∧
      result.status = ((kpiVerdict A goal kpis result.progressGaps result.evidenceGaps).withEvidence
        result.evidenceGaps).status := by
  obtain ⟨states, -, h⟩ := Fallible.bind_eq_ok.1 h
  obtain ⟨signature, -, h⟩ := Fallible.bind_eq_ok.1 h
  cases h
  exact ⟨rfl, rfl, rfl, rfl⟩

/-- When a goal is achieved. -/
theorem status_achieved (h : evaluateGoalProgress A fresh goal kpis r = .ok result) :
    result.status = .achieved ↔ r.missingEvidenceCodes = [] ∧
      requiredPairs goal.goalId kpis ≠ [] ∧
        ∀ p ∈ requiredPairs goal.goalId kpis, Reached A p.2 := by
  obtain ⟨hevidence, -, -, hstatus⟩ := evaluateGoalProgress_ok h
  rw [hstatus, withEvidence_achieved, kpiVerdict_achieved, hevidence, List.map_eq_nil_iff]

/-- Only the KPIs of the goal are read. -/
theorem evaluateGoalProgress_congr {kpis' : List Kpi}
    (h : goalScoped goal kpis' = goalScoped goal kpis) :
    evaluateGoalProgress A fresh goal kpis' r = evaluateGoalProgress A fresh goal kpis r := by
  have hpairs : requiredPairs goal.goalId kpis' = requiredPairs goal.goalId kpis := by
    simp only [goalScoped] at h
    simp only [requiredPairs, h]
  unfold evaluateGoalProgress kpiVerdict
  simp only [hpairs, h]

/-- The required KPIs of the goal. -/
def IsRequired (goal : Goal) (kpis : List Kpi) (k : Kpi) : Prop :=
  k ∈ kpis ∧ k.goalId = goal.goalId ∧ k.required = true

theorem mem_requiredPairs {p : Kpi × Kpi} : p ∈ requiredPairs goal.goalId kpis ↔
    ∃ k, IsRequired goal kpis k ∧ p = (k, evalById (goalScoped goal kpis) k) := by
  simp only [requiredPairs, goalScoped, List.mem_map, List.mem_filter, decide_eq_true_eq,
    IsRequired, and_assoc]
  exact exists_congr fun k => by rw [eq_comm (a := p)]

/-- What a reported achievement owes to the KPIs of the goal. -/
structure AchievementSound (A : Arithmetic) (fresh : Fresh) (goal : Goal) (kpis : List Kpi)
    (r : Request V) (result : EvaluationResult V) : Prop where
  achieved : result.status = .achieved →
    result.evidenceGaps = [] ∧ ∀ k, IsRequired goal kpis k → Reached A k
  foreign : ∀ kpis', goalScoped goal kpis' = goalScoped goal kpis →
    evaluateGoalProgress A fresh goal kpis' r = .ok result

/-- No required KPI that misses its target is hidden by a namesake, or the goal is held back by
something else. -/
def Unhidden (A : Arithmetic) (goal : Goal) (kpis : List Kpi) (r : Request V) : Prop :=
  r.missingEvidenceCodes ≠ [] ∨
    (∃ k, IsRequired goal kpis k ∧ ¬Reached A (evalById (goalScoped goal kpis) k)) ∨
      ∀ k, IsRequired goal kpis k → Reached A k

/-- Reported achievement is sound exactly when no namesake hides a missed target. -/
theorem achievementSound_iff (h : evaluateGoalProgress A fresh goal kpis r = .ok result) :
    AchievementSound A fresh goal kpis r result ↔ Unhidden A goal kpis r := by
  constructor
  · intro hsound
    by_contra hhidden
    simp only [Unhidden, not_or, not_not, not_exists, not_and] at hhidden
    obtain ⟨hcodes, hreached, hmissed⟩ := hhidden
    push Not at hmissed
    obtain ⟨k, hk, hnot⟩ := hmissed
    refine hnot ((hsound.achieved ((status_achieved h).2 ⟨hcodes, ?_, ?_⟩)).2 k hk)
    · exact List.ne_nil_of_mem (mem_requiredPairs.2 ⟨k, hk, rfl⟩)
    · intro p hp
      obtain ⟨j, hj, rfl⟩ := mem_requiredPairs.1 hp
      exact hreached j hj
  · intro hunhidden
    refine ⟨fun hachieved => ?_, fun kpis' hscoped => by rw [evaluateGoalProgress_congr hscoped, h]⟩
    obtain ⟨hcodes, -, hreached⟩ := (status_achieved h).1 hachieved
    rcases hunhidden with hmissing | ⟨k, hk, hnot⟩ | hall
    · exact absurd hcodes hmissing
    · exact absurd (hreached _ (mem_requiredPairs.2 ⟨k, hk, rfl⟩)) hnot
    · refine ⟨?_, hall⟩
      rw [(evaluateGoalProgress_ok h).1, hcodes]
      rfl

theorem goalSemanticSignature_scoped (goal : Goal) (kpis : List Kpi) :
    goalSemanticSignature goal (goalScoped goal kpis) =
      .ok ⟨goal.objectiveKey, canonicalKpis ((goalScoped goal kpis).map kpiSemanticSignature)⟩ := by
  have hown : ((goalScoped goal kpis).any (·.goalId ≠ goal.goalId)) = false := by
    simp [goalScoped]
  rw [goalSemanticSignature, hown]
  rfl

/-- The evaluation fails only where the two states cannot be compared. -/
theorem evaluateGoalProgress_exists :
    (∃ result, evaluateGoalProgress A fresh goal kpis r = .ok result) ↔
      ∃ states, compareStates r = .ok states := by
  rw [evaluateGoalProgress, Fallible.exists_bind_ok]
  refine exists_congr fun states => and_iff_left_of_imp fun _ => ?_
  rw [goalSemanticSignature_scoped]
  exact ⟨_, rfl⟩

end Soundness

section Sample

def sampleGoal : Goal := ⟨"quality", none, []⟩

def sampleFresh : Fresh := ⟨"eval", ⟨0, some 0⟩⟩

/-- A KPI of the goal at a value, to be raised to ten. -/
def coverage (current : ℚ) : Kpi where
  kpiId := "coverage"
  goalId := "quality"
  name := "Coverage"
  metric := "coverage"
  direction := .increase
  targetValue := some 10
  currentValue := some current
  previousValue := none
  unit := ""
  required := true
  maintainTolerance := none

def exactArithmetic : Arithmetic := .exact fun _ => ""

theorem coverage_reached (current : ℚ) : Reached exactArithmetic (coverage current) ↔ 10 ≤ current := by
  rw [← targetReached_iff]
  have hreached := KpiAttainment.reached_increase (A := exactArithmetic) (c := current)
    (k := coverage current) rfl rfl
  change (evaluateKpi exactArithmetic (coverage current)).targetReached = _ at hreached
  rw [hreached, Option.some.injEq, decide_eq_true_iff]

theorem sample_evaluates (kpis : List Kpi) : ∃ result : EvaluationResult Unit,
    evaluateGoalProgress exactArithmetic sampleFresh sampleGoal kpis {} = .ok result :=
  evaluateGoalProgress_exists.2 ⟨none, rfl⟩

/-- A repeated id, and between the two a KPI of another goal that misses its target. -/
def sampleKpis : List Kpi := [coverage 10, { coverage 0 with goalId := "growth" }, coverage 12]

theorem sampleKpis_required {k : Kpi} (h : IsRequired sampleGoal sampleKpis k) :
    k = coverage 10 ∨ k = coverage 12 := by
  obtain ⟨hk, hgoal, -⟩ := h
  simp only [sampleKpis, List.mem_cons, List.not_mem_nil, or_false] at hk
  rcases hk with rfl | rfl | rfl
  · exact .inl rfl
  · exact absurd hgoal (by decide)
  · exact .inr rfl

theorem achievementSound_iff_coverage : ∃ result : EvaluationResult Unit,
    evaluateGoalProgress exactArithmetic sampleFresh sampleGoal sampleKpis {} = .ok result ∧
      result.status = .achieved ∧
        AchievementSound exactArithmetic sampleFresh sampleGoal sampleKpis {} result := by
  obtain ⟨result, hresult⟩ := sample_evaluates sampleKpis
  have hreached : ∀ k, IsRequired sampleGoal sampleKpis k → Reached exactArithmetic k := by
    intro k hk
    rcases sampleKpis_required hk with rfl | rfl
    · exact (coverage_reached 10).2 le_rfl
    · exact (coverage_reached 12).2 (by norm_num)
  refine ⟨result, hresult, (status_achieved hresult).2 ⟨rfl, ?_, ?_⟩,
    (achievementSound_iff hresult).2 (.inr (.inr hreached))⟩
  · exact List.ne_nil_of_mem (mem_requiredPairs.2 ⟨coverage 10, by simp [IsRequired, sampleKpis,
      sampleGoal, coverage], rfl⟩)
  · intro p hp
    obtain ⟨k, hk, rfl⟩ := mem_requiredPairs.1 hp
    have hlast : evalById (goalScoped sampleGoal sampleKpis) k = coverage 12 := by
      rcases sampleKpis_required hk with rfl | rfl <;> decide +kernel
    rw [hlast, coverage_reached]
    norm_num

/-- Of two required KPIs with one id the second alone decides. -/
theorem namesake_hides_missed_target : ∃ result : EvaluationResult Unit,
    evaluateGoalProgress exactArithmetic sampleFresh sampleGoal [coverage 0, coverage 10] {} =
      .ok result ∧ result.status = .achieved ∧
        IsRequired sampleGoal [coverage 0, coverage 10] (coverage 0) ∧
          ¬Reached exactArithmetic (coverage 0) := by
  obtain ⟨result, hresult⟩ := sample_evaluates [coverage 0, coverage 10]
  have hpairs : requiredPairs "quality" [coverage 0, coverage 10] =
      [(coverage 0, coverage 10), (coverage 10, coverage 10)] := by decide +kernel
  refine ⟨result, hresult, (status_achieved hresult).2 ⟨rfl, ?_, ?_⟩, ?_, ?_⟩
  · rw [show sampleGoal.goalId = "quality" from rfl, hpairs]
    simp
  · rw [show sampleGoal.goalId = "quality" from rfl, hpairs]
    simp [coverage_reached]
  · exact ⟨by simp, rfl, rfl⟩
  · rw [coverage_reached]
    norm_num

end Sample

end Ajenda.GoalEvaluation
