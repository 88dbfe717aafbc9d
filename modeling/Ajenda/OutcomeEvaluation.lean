import Ajenda.GoalEvaluation
import Ajenda.ObservationAttribution

/-!
# The evaluation of an outcome

`evaluate_outcome` pairs the KPIs of a baseline with observed ones by id alone, compares each pair
and gives one status; the goal is evaluated on the side.
-/
namespace Ajenda.Outcome
open GoalProgress (Kpi KpiDirection GoalProgressStatus)
open KpiAttainment (Arithmetic evaluateKpi)
open GoalEvaluation (Goal BusinessStateSnapshot BusinessEvent StateComparison ProgressGap
  EvaluationResult Request Fresh GoalError evidenceGap compareStateSnapshots evaluateGoalProgress
  goalSemanticSignature goalScoped)
open Experience (BusinessObjectRef BusinessObjectType GoalSemanticSignature KpiSemanticSignature
  AttributionAssessment CaseFolding canonicalSubjects nonEmpty orderedUnique Datetime)

section Records

inductive OutcomeStatus
  | achieved | partialProgress | noMaterialChange | regressed | inconclusive | insufficientEvidence
  deriving DecidableEq

inductive DirectionAssessment
  | towardTarget | awayFromTarget | unchanged | targetReached | insufficientData
  deriving DecidableEq

structure KpiOutcomeDelta where
  kpiId : String
  metric : String
  direction : KpiDirection
  required : Bool := false
  before : Option ℚ := none
  after : Option ℚ := none
  target : Option ℚ := none
  absoluteChange : Option ℚ := none
  previousGap : Option ℚ := none
  remainingGap : Option ℚ := none
  gapClosed : Option ℚ := none
  gapClosureRatio : Option ℚ := none
  targetReached : Option Bool := none
  directionAssessment : DirectionAssessment := .insufficientData
  explanationCodes : List String := []
  deriving DecidableEq

structure OutcomeExpectation (V : Type) where
  goal : Goal
  subjectRefs : List BusinessObjectRef := []
  baselineKpis : List Kpi := []
  baselineSnapshot : Option (BusinessStateSnapshot V) := none
  successCriteriaCodes : List String := []

structure ObservedOutcome (V : Type) where
  observedKpis : List Kpi := []
  observedSnapshot : Option (BusinessStateSnapshot V) := none
  observedAt : Option AwareTime := none
  sourceObservedAt : Option AwareTime := none
  capturedAt : Option AwareTime := none
  assertedObservedAt : Option AwareTime := none
  events : List BusinessEvent := []
  evidenceIds : List String := []
  missingEvidenceCodes : List String := []
  legacy : ∀ s ∈ observedAt, ∀ t ∈ assertedObservedAt, s.1.instant = t.1.instant

structure CriteriaResult where
  code : String
  satisfied : Option Bool := none
  explanationCode : String := ""
  deriving DecidableEq

/-- An outcome evaluation; its attribution is earned from its evidence. -/
structure OutcomeEvaluation (V : Type) where
  outcomeEvaluationId : String
  acceptedMeasurementPairingId : Option String
  subjectRefs : List BusinessObjectRef
  goalId : Option String
  goalSemanticSignature : GoalSemanticSignature
  subjectSemanticSignatures : List BusinessObjectType
  kpiSemanticSignatures : List KpiSemanticSignature
  status : OutcomeStatus
  kpiDeltas : List KpiOutcomeDelta
  stateChanges : Option (StateComparison V)
  criteriaResults : List CriteriaResult
  baselineEvaluation : EvaluationResult V
  observedEvaluation : EvaluationResult V
  supportingEvidenceIds : List String
  evidenceGaps : List ProgressGap
  attribution : AttributionAssessment
  attributionEvidence : Option AttributionAssessmentEvidence
  confidence : ℚ
  explanationCodes : List String
  observedAt : Option AwareTime
  observationTiming : ObservationTiming
  evaluatedAt : Datetime
  matching : ∀ e ∈ attributionEvidence,
    attribution = e.resultingAttribution ∧ e.observationTiming = observationTiming
  earned : attributionEvidence = none → attribution ≠ .supportedContribution
  timed : observedAt = observationTiming.resolvedObservedAt

end Records

section Deltas
variable (A : Arithmetic)

/-- `_signed_gap` of a value and a target that are there. -/
def signedGap (value target : ℚ) : KpiDirection → ℚ
  | .increase => A.sub target value
  | .decrease => A.sub value target
  | .maintain => |A.sub value target|

/-- The two KPIs measure the same for the same goal. -/
def SameDefinition (baseline observed : Kpi) : Prop :=
  baseline.metric = observed.metric ∧ baseline.direction = observed.direction ∧
    baseline.goalId = observed.goalId

instance (baseline observed : Kpi) : Decidable (SameDefinition baseline observed) :=
  inferInstanceAs (Decidable (_ ∧ _ ∧ _))

def targetOf (baseline observed : Kpi) : Option ℚ :=
  observed.targetValue.or baseline.targetValue

def movement (toward away : Bool) : DirectionAssessment × String :=
  if toward then (.towardTarget, "gap_reduced")
  else if away then (.awayFromTarget, "gap_increased")
  else (.unchanged, "no_material_change")

/-- Where a KPI that misses its target moved. -/
def movementOf (direction : KpiDirection) (change previousGap remainingGap : ℚ) :
    DirectionAssessment × String :=
  match direction with
  | .increase => movement (0 < change) (change < 0)
  | .decrease => movement (change < 0) (0 < change)
  | .maintain => movement (remainingGap < previousGap) (previousGap < remainingGap)

/-- The observed KPI as it is evaluated in a pair. -/
def observedForEval (observed : Kpi) (before after target : ℚ) : Kpi :=
  { observed with
    currentValue := some after
    targetValue := some target
    previousValue := some before }

def closureRatio (previousGap remainingGap gapClosed : ℚ) : ℚ :=
  if previousGap = 0 then if remainingGap = 0 then 1 else 0 else A.div gapClosed previousGap

/-- `_kpi_outcome_delta`. -/
def kpiOutcomeDelta (baseline observed : Kpi) : KpiOutcomeDelta :=
  let unmeasured (code : String) : KpiOutcomeDelta :=
    { kpiId := observed.kpiId
      metric := observed.metric
      direction := observed.direction
      required := baseline.required || observed.required
      before := baseline.currentValue
      after := observed.currentValue
      target := targetOf baseline observed
      explanationCodes := [code] }
  if ¬SameDefinition baseline observed then unmeasured "kpi_definition_mismatch"
  else
    match baseline.currentValue, observed.currentValue, targetOf baseline observed with
    | some before, some after, some target =>
      let change := A.sub after before
      let previousGap := signedGap A before target observed.direction
      let remainingGap := signedGap A after target observed.direction
      let gapClosed := A.sub previousGap remainingGap
      let reached := (evaluateKpi A (observedForEval observed before after target)).targetReached =
        some true
      let moved :=
        if reached then (.targetReached, "target_reached")
        else movementOf observed.direction change previousGap remainingGap
      { kpiId := observed.kpiId
        metric := observed.metric
        direction := observed.direction
        required := baseline.required || observed.required
        before := some before
        after := some after
        target := some target
        absoluteChange := some (A.round change 6)
        previousGap := some (A.round previousGap 6)
        remainingGap := some (A.round remainingGap 6)
        gapClosed := some (A.round gapClosed 6)
        gapClosureRatio := some (A.round (closureRatio A previousGap remainingGap gapClosed) 6)
        targetReached := some reached
        directionAssessment := moved.1
        explanationCodes := [moved.2] }
    | _, _, _ => unmeasured "kpi_insufficient_data"

/-- `observed_by_id`: of several KPIs with one id the last. -/
def lastById (kpis : List Kpi) (id : String) : Option Kpi := kpis.reverse.find? (·.kpiId = id)

/-- `_pair_kpis`. -/
def pairKpis (baseline observed : List Kpi) : List (Kpi × Kpi) :=
  baseline.filterMap fun b => (lastById observed b.kpiId).map fun o => (b, o)

def unmatched (kpis others : List Kpi) : List Kpi :=
  kpis.filter fun k => k.kpiId ∉ others.map (·.kpiId)

def observedMissing (base : Kpi) : KpiOutcomeDelta where
  kpiId := base.kpiId
  metric := base.metric
  direction := base.direction
  required := base.required
  before := base.currentValue
  target := base.targetValue
  explanationCodes := ["observed_kpi_missing"]

def baselineMissing (obs : Kpi) : KpiOutcomeDelta where
  kpiId := obs.kpiId
  metric := obs.metric
  direction := obs.direction
  required := obs.required
  after := obs.currentValue
  target := obs.targetValue
  explanationCodes := ["baseline_kpi_missing"]

def kpiDeltas (baseline observed : List Kpi) : List KpiOutcomeDelta :=
  (pairKpis baseline observed).map (fun p => kpiOutcomeDelta A p.1 p.2) ++
    (unmatched baseline observed).map observedMissing ++
    (unmatched observed baseline).map baselineMissing

end Deltas

section Status

def KpiOutcomeDelta.measured (d : KpiOutcomeDelta) : Bool :=
  d.directionAssessment ≠ .insufficientData

structure Aggregate where
  status : OutcomeStatus
  confidence : ℚ
  codes : List String
  deriving DecidableEq

/-- The status of deltas of which some can be measured and no required one cannot. -/
def measuredStatus (measurable : List KpiOutcomeDelta) (evidenceGaps : List ProgressGap) :
    Aggregate :=
  let missing := if evidenceGaps ≠ [] then ["required_evidence_missing"] else []
  let moved (a : DirectionAssessment) : Bool := measurable.any (·.directionAssessment = a)
  if measurable.all (·.directionAssessment = .targetReached) then
    if evidenceGaps ≠ [] then
      ⟨.insufficientEvidence, 45 / 100, missing ++ ["all_targets_reached"]⟩
    else ⟨.achieved, 9 / 10, missing ++ ["all_targets_reached"]⟩
  else if moved .awayFromTarget && !moved .towardTarget && !moved .targetReached then
    ⟨.regressed, 75 / 100, missing ++ ["regressed"]⟩
  else if moved .towardTarget || moved .targetReached then
    ⟨.partialProgress, if evidenceGaps = [] then 7 / 10 else 55 / 100,
      missing ++ ["partial_progress"] ++
        if moved .awayFromTarget then ["mixed_direction"] else []⟩
  else if moved .unchanged && !moved .awayFromTarget then
    ⟨.noMaterialChange, 65 / 100, missing ++ ["no_material_change"]⟩
  else ⟨.inconclusive, 45 / 100, missing ++ ["inconclusive"]⟩

/-- `_aggregate_status`. -/
def aggregateStatus (deltas : List KpiOutcomeDelta) (evidenceGaps : List ProgressGap) : Aggregate :=
  let requiredUnknown := deltas.filter fun d => d.required && !d.measured
  let measurable := deltas.filter (·.measured)
  if deltas = [] ∧ evidenceGaps ≠ [] then
    ⟨.insufficientEvidence, 35 / 100, ["required_evidence_missing"]⟩
  else if deltas = [] then ⟨.insufficientEvidence, 3 / 10, ["no_kpi_pairs"]⟩
  else if requiredUnknown ≠ [] then
    let codes := "required_kpi_insufficient_data" ::
      if requiredUnknown.any fun d => "kpi_definition_mismatch" ∈ d.explanationCodes then
        ["kpi_definition_mismatch"]
      else []
    if measurable.any (!·.required) then
      ⟨.inconclusive, 4 / 10, codes ++ ["required_kpi_unresolved"]⟩
    else ⟨.insufficientEvidence, 35 / 100, codes⟩
  else if measurable = [] then ⟨.insufficientEvidence, 35 / 100, ["kpi_insufficient_data"]⟩
  else measuredStatus measurable evidenceGaps

end Status

section Evaluation
variable {V : Type} [DecidableEq V] (A : Arithmetic) (F : CaseFolding)

/-- The ids and the time an outcome evaluation takes when it is given none. -/
structure FreshOutcome where
  baseline : Fresh
  observed : Fresh
  outcomeEvaluationId : String
  now : Datetime

/-- What an outcome evaluation is asked with besides the two conditions. -/
structure OutcomeRequest where
  attribution : AttributionAssessment := .notAssessed
  attributionEvidence : Option AttributionEvidenceInput := none
  acceptedMeasurementPairingId : Option String := none
  outcomeEvaluationId : Option String := none
  evaluatedAt : Option Datetime := none

/-- The observed KPIs with the required ones of the baseline that were not observed. -/
def observedKpisForEvaluation (goal : Goal) (baseline observed : List Kpi) : List Kpi :=
  observed ++ ((unmatched baseline observed).filter (·.required)).map fun base =>
    { base with
      goalId := goal.goalId
      currentValue := none
      previousValue := base.currentValue }

/-- An attribution, the evidence it was earned from and what is said about it. -/
structure Attributed (timing : ObservationTiming) where
  attribution : AttributionAssessment
  evidence : Option AttributionAssessmentEvidence
  codes : List String
  matching : ∀ e ∈ evidence, attribution = e.resultingAttribution ∧ e.observationTiming = timing
  earned : evidence = none → attribution ≠ .supportedContribution

def attributed (timing : ObservationTiming) (r : OutcomeRequest) : Attributed timing :=
  match r.attributionEvidence with
  | some evidence =>
    let assessed := evaluateAttributionEvidence F evidence timing
    { attribution := assessed.resultingAttribution
      evidence := some assessed
      codes := assessed.explanationCodes
      matching := by
        rintro e ⟨⟩
        exact ⟨rfl, rfl⟩
      earned := by simp }
  | none =>
    if h : r.attribution = .supportedContribution then
      { attribution := .insufficientEvidence
        evidence := none
        codes := ["caller_asserted_supported_contribution_rejected", "attribution_evidence_required"]
        matching := by simp
        earned := by simp }
    else
      { attribution := r.attribution
        evidence := none
        codes := if r.attribution = .temporalAssociation then
          ["attribution_temporal_association_caller_asserted"] else []
        matching := by simp
        earned := fun _ => h }

def outcomeSubjects (expectation : OutcomeExpectation V) (observed : ObservedOutcome V) :
    List BusinessObjectRef :=
  let refs :=
    if expectation.subjectRefs = [] then expectation.goal.subjectRefs else expectation.subjectRefs
  match observed.observedSnapshot with
  | none => refs
  | some state => if state.subjectRef ∈ refs then refs else refs ++ [state.subjectRef]

def outcomeStates (expectation : OutcomeExpectation V) (observed : ObservedOutcome V) :
    Except GoalError (Option (StateComparison V)) :=
  match expectation.baselineSnapshot, observed.observedSnapshot with
  | some earlier, some later => (compareStateSnapshots earlier later).map some
  | _, _ => .ok none

/-- `evaluate_outcome`. -/
def evaluateOutcome (fresh : FreshOutcome) (expectation : OutcomeExpectation V)
    (observed : ObservedOutcome V) (r : OutcomeRequest) :
    Except GoalError (OutcomeEvaluation V) := do
  let timing := resolveObservationTiming observed.sourceObservedAt observed.capturedAt
    (observed.assertedObservedAt.or observed.observedAt)
  let goal := expectation.goal
  let deltas := kpiDeltas A expectation.baselineKpis observed.observedKpis
  let stateChanges ← outcomeStates expectation observed
  let evidenceGaps := observed.missingEvidenceCodes.map evidenceGap
  let baselineEvaluation ← evaluateGoalProgress A fresh.baseline goal expectation.baselineKpis
    { currentState := expectation.baselineSnapshot }
  let observedEvaluation ← evaluateGoalProgress A fresh.observed goal
    (observedKpisForEvaluation goal expectation.baselineKpis observed.observedKpis)
    { currentState := observed.observedSnapshot
      previousState := expectation.baselineSnapshot
      events := observed.events
      evidenceIds := observed.evidenceIds
      missingEvidenceCodes := observed.missingEvidenceCodes }
  let aggregate := aggregateStatus deltas evidenceGaps
  let goalAchieved : Bool := observedEvaluation.status = .achieved ∧
    aggregate.status = .achieved ∧ deltas.any (·.targetReached = some true)
  let attribution := attributed F timing r
  let subjects := outcomeSubjects expectation observed
  let signature ← goalSemanticSignature goal (goalScoped goal expectation.baselineKpis)
  return {
    outcomeEvaluationId := (nonEmpty r.outcomeEvaluationId).getD fresh.outcomeEvaluationId
    acceptedMeasurementPairingId := r.acceptedMeasurementPairingId
    subjectRefs := subjects
    goalId := some goal.goalId
    goalSemanticSignature := signature
    subjectSemanticSignatures := canonicalSubjects (subjects.map (·.objectType))
    kpiSemanticSignatures := signature.kpis
    status := aggregate.status
    kpiDeltas := deltas
    stateChanges := stateChanges
    criteriaResults := expectation.successCriteriaCodes.map fun code =>
      { code := code, explanationCode := "criteria_not_independently_evaluated_v1" }
    baselineEvaluation := baselineEvaluation
    observedEvaluation := observedEvaluation
    supportingEvidenceIds := orderedUnique
      (observed.evidenceIds ++ (observed.observedSnapshot.map (·.evidenceIds)).getD [])
    evidenceGaps := evidenceGaps
    attribution := attribution.attribution
    attributionEvidence := attribution.evidence
    confidence := A.round
      (if goalAchieved then max aggregate.confidence (85 / 100) else aggregate.confidence) 4
    explanationCodes := orderedUnique (aggregate.codes ++
      (if stateChanges.any (·.changes ≠ []) then ["state_transition_observed"] else []) ++
      (if goalAchieved then ["observed_goal_achieved"] else []) ++
      (if expectation.successCriteriaCodes ≠ [] then ["criteria_recorded_not_evaluated"] else []) ++
      attribution.codes)
    observedAt := timing.resolvedObservedAt
    observationTiming := timing
    evaluatedAt := r.evaluatedAt.getD fresh.now
    matching := attribution.matching
    earned := attribution.earned
    timed := rfl }

end Evaluation

end Ajenda.Outcome
