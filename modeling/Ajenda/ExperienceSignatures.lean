import Ajenda.CanonicalText

/-!
# Context signatures of experience episodes

The observations experience intelligence compares: the fields of an episode and its learning
signal that the recurrence logic reads, `derive_context_signature`, the resolution of one goal
identity for each exact goal, the partition payload, and the comparison of two signatures.
-/
namespace Ajenda.Experience
open Ajenda.Runtime (strip)

inductive BusinessObjectType
  | person | organization | account | contact | lead | opportunity
  deriving DecidableEq, Repr

def BusinessObjectType.value : BusinessObjectType → String
  | .person => "person"
  | .organization => "organization"
  | .account => "account"
  | .contact => "contact"
  | .lead => "lead"
  | .opportunity => "opportunity"

/-- `BusinessObjectType(value)`. -/
def BusinessObjectType.ofValue (value : String) : Option BusinessObjectType :=
  [.person, .organization, .account, .contact, .lead, .opportunity].find? (·.value = value)

structure BusinessObjectRef where
  objectType : BusinessObjectType
  objectId : String
  deriving DecidableEq, Repr

inductive KpiDirection
  | increase | decrease | maintain
  deriving DecidableEq, Repr

def KpiDirection.value : KpiDirection → String
  | .increase => "increase"
  | .decrease => "decrease"
  | .maintain => "maintain"

structure KpiSemanticSignature where
  metric : String
  direction : KpiDirection
  normalizedUnit : Option String
  deriving DecidableEq, Repr

structure GoalSemanticSignature where
  objectiveKey : Option String
  kpis : List KpiSemanticSignature
  deriving DecidableEq, Repr

inductive EvidenceLineageResolution
  | known | partly | unknown
  deriving DecidableEq, Repr

structure EvidenceSourceIdentity where
  sourceSystem : String
  sourceRecordId : String
  deriving DecidableEq, Repr

structure EvidenceLineage where
  artifactEvidenceId : String
  sourceIdentity : Option EvidenceSourceIdentity := none
  rootEvidenceIds : List String := []
  parentEvidenceIds : List String := []
  ancestorEvidenceIds : List String := []
  resolution : EvidenceLineageResolution := .unknown
  deriving DecidableEq, Repr

/-- `EvidenceLineage.dependence_keys`. -/
def EvidenceLineage.dependenceKeys (l : EvidenceLineage) : List String :=
  ("evidence:" ++ l.artifactEvidenceId) ::
    (l.rootEvidenceIds ++ l.parentEvidenceIds ++ l.ancestorEvidenceIds).map ("evidence:" ++ ·) ++
    (l.sourceIdentity.map fun s => "source:" ++ s.sourceSystem ++ ":" ++ s.sourceRecordId).toList

inductive ExecutionFidelity
  | notExecuted | partiallyExecuted | executedAsRecommended | executedWithMaterialVariation
  | executionUnknown
  deriving DecidableEq, Repr

inductive DecisionEffectivenessStatus
  | highlyEffective | effective | partiallyEffective | ineffective | counterproductive
  | notExecuted | notEvaluable | insufficientEvidence
  deriving DecidableEq, Repr

inductive AttributionAssessment
  | notAssessed | temporalAssociation | supportedContribution | conflictingEvidence
  | insufficientEvidence
  deriving DecidableEq, Repr

inductive LearningSignalStrength
  | weak | candidate | supported
  deriving DecidableEq, Repr

inductive ObservationTimeProvenance
  | sourceVerified | derived | callerAsserted | unknown
  deriving DecidableEq, Repr

def ObservationTimeProvenance.value : ObservationTimeProvenance → String
  | .sourceVerified => "source_verified"
  | .derived => "derived"
  | .callerAsserted => "caller_asserted"
  | .unknown => "unknown"

inductive EpisodeKind
  | missionDecision | businessImpact
  deriving DecidableEq, Repr

/-- A `datetime`: its wall time and, when it is aware, its offset from UTC. -/
structure Datetime where
  wall : Int
  utcoffset : Option Int
  deriving DecidableEq, Repr

def Datetime.aware (t : Datetime) : Bool := t.utcoffset.isSome

structure DecisionLearningSignal where
  signalId : String
  decisionId : String
  episodeKind : Option EpisodeKind := none
  subjectRefs : List BusinessObjectRef := []
  goalId : Option String := none
  subjectSemanticSignatures : List BusinessObjectType := []
  goalSemanticSignature : Option GoalSemanticSignature := none
  interventionKey : Option String := none
  evidenceLineages : List EvidenceLineage := []
  executionFidelity : ExecutionFidelity
  effectiveness : DecisionEffectivenessStatus
  attributionStrength : AttributionAssessment
  scopeConditions : List String := []
  invalidationConditions : List String := []
  supportingEvidenceIds : List String := []
  signalStrength : LearningSignalStrength
  evaluatedAt : Datetime
  deriving DecidableEq, Repr

structure ExperienceEpisodeInput where
  episodeId : String
  signal : DecisionLearningSignal
  recommendationClass : Option String := none
  objectiveDimensions : List String := []
  attributionEvidenceIds : List String := []
  observationTimeProvenance : ObservationTimeProvenance := .unknown
  lineageIds : List String := []
  deriving DecidableEq, Repr

inductive InterventionSemanticBasis
  | decisionOwner | legacyExperienceFallback
  deriving DecidableEq, Repr

inductive GoalSemanticBasis
  | ownerExplicitObjective | inheritedExplicitObjective | ownerKpiOnly | inheritedKpiOnly
  | exactGoalInstanceFallback
  deriving DecidableEq, Repr

/-- The goal identity of a partition: `objective:`, `kpis:` or `instance:` and what follows. -/
inductive GoalIdentity
  | objective (key : String)
  | kpis (signatures : List KpiSemanticSignature)
  | exactInstance (goalId : String)
  deriving DecidableEq, Repr

structure ExperienceContextSignature where
  episodeId : String
  exactSignalId : String
  exactDecisionId : String
  exactSubjectRefs : List String
  exactGoalId : Option String
  goalSemanticSignature : Option GoalSemanticSignature
  resolvedGoalPartitionIdentity : Option GoalIdentity := none
  goalSemanticConflict : Bool := false
  goalSemanticsPartial : Bool := false
  goalSemanticBasis : Option GoalSemanticBasis := none
  semanticSubjectTypes : List String
  subjectSemanticConflict : Bool
  recommendationClass : Option String
  interventionSemanticBasis : Option InterventionSemanticBasis
  interventionSemanticConflict : Bool
  objectiveDimensions : List String
  attributionAssessment : AttributionAssessment
  observationTimeProvenance : ObservationTimeProvenance
  executionFidelity : ExecutionFidelity
  learningSignalStrength : LearningSignalStrength
  scopeConditions : List String
  invalidationConditions : List String
  supportingEvidenceIds : List String
  lineageDependenceKeys : List String
  lineageResolution : EvidenceLineageResolution
  deriving DecidableEq, Repr

/-- `_subject_ref_key`. -/
def subjectRefKey (F : CaseFolding) (ref : BusinessObjectRef) : String :=
  F.casefold (strip ref.objectType.value) ++ ":" ++ strip ref.objectId

def lineageResolutionOf (resolutions : List EvidenceLineageResolution) :
    EvidenceLineageResolution :=
  if .unknown ∈ resolutions ∨ resolutions = [] then .unknown
  else if .partly ∈ resolutions then .partly
  else .known

/-- `derive_context_signature`. -/
def deriveContextSignature (F : CaseFolding) (episode : ExperienceEpisodeInput) :
    ExperienceContextSignature :=
  let signal := episode.signal
  let ownerIntervention := norm F signal.interventionKey
  let compatibilityIntervention := norm F episode.recommendationClass
  let exactSubjectTypes :=
    canonicalSemanticValues F (signal.subjectRefs.map (·.objectType.value))
  let ownerSubjectTypes :=
    canonicalSemanticValues F (signal.subjectSemanticSignatures.map (·.value))
  let legacy := episode.lineageIds ≠ []
  { episodeId := episode.episodeId
    exactSignalId := signal.signalId
    exactDecisionId := signal.decisionId
    exactSubjectRefs := sortedSet (signal.subjectRefs.map (subjectRefKey F))
    exactGoalId := signal.goalId.bind fun g => if strip g = "" then none else some (strip g)
    goalSemanticSignature := signal.goalSemanticSignature
    semanticSubjectTypes := if ownerSubjectTypes = [] then exactSubjectTypes else ownerSubjectTypes
    subjectSemanticConflict :=
      exactSubjectTypes ≠ [] ∧ ownerSubjectTypes ≠ [] ∧ exactSubjectTypes ≠ ownerSubjectTypes
    recommendationClass := ownerIntervention.or compatibilityIntervention
    interventionSemanticBasis :=
      if ownerIntervention.isSome then some .decisionOwner
      else if compatibilityIntervention.isSome then some .legacyExperienceFallback
      else none
    interventionSemanticConflict :=
      ownerIntervention.isSome ∧ compatibilityIntervention.isSome ∧
        ownerIntervention ≠ compatibilityIntervention
    objectiveDimensions := canonicalSemanticValues F episode.objectiveDimensions
    attributionAssessment := signal.attributionStrength
    observationTimeProvenance := episode.observationTimeProvenance
    executionFidelity := signal.executionFidelity
    learningSignalStrength := signal.signalStrength
    scopeConditions := canonicalSemanticValues F signal.scopeConditions
    invalidationConditions := canonicalSemanticValues F signal.invalidationConditions
    supportingEvidenceIds :=
      canonicalIdentifiers (signal.supportingEvidenceIds ++ episode.attributionEvidenceIds)
    lineageDependenceKeys :=
      sortedSet (signal.evidenceLineages.flatMap (·.dependenceKeys) ++
        if legacy then (canonicalIdentifiers episode.lineageIds).map ("legacy-root:" ++ ·) else [])
    lineageResolution :=
      lineageResolutionOf (signal.evidenceLineages.map (·.resolution) ++
        if legacy then [.known] else []) }

/-! ## The goal identity of a signature -/

/-- A text field that is present and not empty. -/
def nonEmpty (value : Option String) : Option String := value.filter (· ≠ "")

/-- `_goal_signature_identity`: the identity and whether it is partial. -/
def goalSignatureIdentity : Option GoalSemanticSignature → Option GoalIdentity × Bool
  | none => (none, false)
  | some signature =>
    match nonEmpty signature.objectiveKey with
    | some key => (some (.objective key), false)
    | none =>
      if signature.kpis ≠ [] then (some (.kpis signature.kpis), true) else (none, false)

def ownerObjective (signature : ExperienceContextSignature) : Option String :=
  signature.goalSemanticSignature.bind fun g => nonEmpty g.objectiveKey

def ownerKpis (signature : ExperienceContextSignature) : List KpiSemanticSignature :=
  (signature.goalSemanticSignature.map (·.kpis)).getD []

/-- `objectives_by_goal[goal]`. -/
def objectivesByGoal (signatures : List ExperienceContextSignature) (goal : String) :
    List GoalIdentity :=
  ((signatures.filter (·.exactGoalId = some goal)).filterMap fun s =>
    (ownerObjective s).map .objective).dedup

/-- `kpis_by_goal[goal]`. -/
def kpisByGoal (signatures : List ExperienceContextSignature) (goal : String) :
    List GoalIdentity :=
  ((signatures.filter (·.exactGoalId = some goal)).filterMap fun s =>
    if ownerKpis s ≠ [] then some (.kpis (ownerKpis s)) else none).dedup

/-- The identity a signature gets, whether it is partial, and whether its goal is in conflict. -/
def resolvedIdentity (signatures : List ExperienceContextSignature)
    (signature : ExperienceContextSignature) : Option GoalIdentity × Bool × Bool :=
  let own := goalSignatureIdentity signature.goalSemanticSignature
  match signature.exactGoalId with
  | none => (own.1, own.2, false)
  | some goal =>
    let objectives := objectivesByGoal signatures goal
    let kpis := kpisByGoal signatures goal
    if 1 < objectives.length ∨ (objectives ≠ [] ∧ 1 < kpis.length) then (none, false, true)
    else if objectives.length = 1 then (objectives.head?, false, false)
    else if 1 < kpis.length then (none, false, true)
    else if kpis.length = 1 then (kpis.head?, true, false)
    else if own.1 = none then (some (.exactInstance goal), own.2, false)
    else (own.1, own.2, false)

def goalBasis (signature : ExperienceContextSignature) : Option GoalIdentity →
    Option GoalSemanticBasis
  | none => none
  | some (.objective _) =>
    some (if (ownerObjective signature).isSome then .ownerExplicitObjective
      else .inheritedExplicitObjective)
  | some (.kpis _) => some (if ownerKpis signature ≠ [] then .ownerKpiOnly else .inheritedKpiOnly)
  | some (.exactInstance _) => some .exactGoalInstanceFallback

def resolveSignature (signatures : List ExperienceContextSignature)
    (signature : ExperienceContextSignature) : ExperienceContextSignature :=
  let resolved := resolvedIdentity signatures signature
  { signature with
    resolvedGoalPartitionIdentity := resolved.1
    goalSemanticsPartial := resolved.2.1
    goalSemanticConflict := resolved.2.2
    goalSemanticBasis := goalBasis signature resolved.1 }

/-- `_resolve_goal_authority`. -/
def resolveGoalAuthority (signatures : List ExperienceContextSignature) :
    List ExperienceContextSignature :=
  signatures.map (resolveSignature signatures)

/-! ## Partitions -/

structure PartitionPayload where
  goalId : GoalIdentity
  recommendationClass : String
  scopeConditions : List String
  subjectTypes : List String
  deriving DecidableEq, Repr

/-- `_partition_payload`. -/
def partitionPayload (sig : ExperienceContextSignature) : Option PartitionPayload :=
  if sig.interventionSemanticConflict || sig.subjectSemanticConflict || sig.goalSemanticConflict
  then none
  else
    match nonEmpty sig.recommendationClass, sig.resolvedGoalPartitionIdentity with
    | some intervention, some identity =>
      if intervention = "unknown" ∨ sig.semanticSubjectTypes = [] then none
      else some ⟨identity, intervention, sig.scopeConditions, sig.semanticSubjectTypes⟩
    | _, _ => none

/-! ## Comparison of two signatures -/

inductive ComparabilityStatus
  | comparable | partiallyComparable | incompatible | insufficientContext
  deriving DecidableEq, Repr

inductive IndependenceStatus
  | independent | partiallyIndependent | dependent | indeterminate
  deriving DecidableEq, Repr

structure ExperienceComparison where
  leftEpisodeId : String
  rightEpisodeId : String
  comparability : ComparabilityStatus
  independence : IndependenceStatus
  reasonCodes : List String
  deriving DecidableEq, Repr

/-- Two canonical lists with a member in common. -/
def overlap (xs ys : List String) : Bool := xs.any (· ∈ ys)

/-- `compare_goal_semantics`, with the comparability `_compare` reads off its status. -/
def compareGoalSemantics (left right : GoalSemanticSignature) : ComparabilityStatus × String :=
  match left.objectiveKey, right.objectiveKey with
  | some l, some r =>
    if l = r then (.comparable, "matching_explicit_objective_key")
    else (.incompatible, "different_explicit_objective_key")
  | _, _ =>
    if left.kpis ≠ [] ∧ right.kpis ≠ [] then
      if left.kpis = right.kpis then
        (.partiallyComparable, "matching_kpi_semantics_without_complete_objective_identity")
      else (.incompatible, "different_kpi_semantics")
    else (.insufficientContext, "objective_and_kpi_semantics_insufficient")

/-- `_pair_independence`. -/
def pairIndependence (a b : ExperienceContextSignature) : IndependenceStatus × List String :=
  let sameSignal := a.exactSignalId = b.exactSignalId
  let sameDecision := a.exactDecisionId = b.exactDecisionId
  let sharedLineage := overlap a.lineageDependenceKeys b.lineageDependenceKeys
  let sharedEvidence := overlap a.supportingEvidenceIds b.supportingEvidenceIds
  let sharedSubject := overlap a.exactSubjectRefs b.exactSubjectRefs
  let codes :=
    (if sameSignal then ["duplicate_signal_id"] else []) ++
    (if sameDecision then ["duplicate_decision_id"] else []) ++
    (if sharedLineage then ["reused_lineage"] else []) ++
    (if sharedEvidence then ["overlapping_evidence_ids"] else []) ++
    (if sharedSubject then ["same_subject_instance_correlation"] else [])
  if sameSignal ∨ sameDecision ∨ sharedLineage then (.dependent, codes)
  else if sharedEvidence || sharedSubject then (.partiallyIndependent, codes)
  else if a.lineageResolution = .unknown ∨ b.lineageResolution = .unknown then
    (.indeterminate, codes ++ ["unknown_lineage_not_independent"])
  else if a.lineageResolution = .partly ∨ b.lineageResolution = .partly then
    (.partiallyIndependent, codes ++ ["partially_resolved_lineage"])
  else if a.supportingEvidenceIds = [] ∨ b.supportingEvidenceIds = [] then
    (.indeterminate, codes ++ ["independence_evidence_insufficient"])
  else (.independent, codes ++ ["no_dependence_signal_detected"])

/-- The comparability of two signatures before their scopes are compared. -/
def baseComparability (left right : ExperienceContextSignature) :
    ComparabilityStatus × List String :=
  let sameGoal := left.exactGoalId ≠ none ∧ left.exactGoalId = right.exactGoalId
  if left.interventionSemanticConflict || right.interventionSemanticConflict then
    (.incompatible, ["intervention_semantic_conflict"])
  else if left.subjectSemanticConflict || right.subjectSemanticConflict then
    (.incompatible, ["subject_semantic_conflict"])
  else if left.goalSemanticConflict || right.goalSemanticConflict then
    (.incompatible, ["goal_semantic_conflict"])
  else if nonEmpty left.recommendationClass = none ∨ nonEmpty right.recommendationClass = none then
    (.insufficientContext, ["missing_recommendation_class_unclassified"])
  else if left.recommendationClass = some "unknown" ∨ right.recommendationClass = some "unknown" then
    (.insufficientContext, ["unknown_recommendation_class_unclassified"])
  else if left.recommendationClass ≠ right.recommendationClass then
    (.incompatible, ["different_recommendation_class_partition"])
  else if left.semanticSubjectTypes ≠ right.semanticSubjectTypes then
    (.incompatible, ["different_subject_type"])
  else
    match left.goalSemanticSignature, right.goalSemanticSignature with
    | some l, some r =>
      let goal := compareGoalSemantics l r
      (goal.1, goal.2 :: if goal.1 = .incompatible ∧ sameGoal then
        ["same_goal_instance_has_conflicting_owner_semantics"] else [])
    | _, _ =>
      if sameGoal then
        (.comparable, ["same_exact_goal_instance_without_complete_owner_semantics"])
      else if left.exactGoalId = none ∨ right.exactGoalId = none then
        (.insufficientContext, ["goal_semantics_insufficient"])
      else (.incompatible, ["different_goal_id_without_owned_semantic_equivalence"])

/-- `_compare`: the signature with the smaller episode id is the left one. -/
def compareSignatures (a b : ExperienceContextSignature) : ExperienceComparison :=
  let left := if b.episodeId < a.episodeId then b else a
  let right := if b.episodeId < a.episodeId then a else b
  let base := baseComparability left right
  let comp :=
    if base.1 = .comparable then
      if left.scopeConditions ≠ right.scopeConditions then
        (ComparabilityStatus.partiallyComparable, base.2 ++ ["different_scope_conditions_partition"])
      else (base.1, base.2 ++ ["same_semantic_partition"])
    else base
  let indep := pairIndependence left right
  ⟨left.episodeId, right.episodeId, comp.1, indep.1, comp.2 ++ indep.2⟩

/-- The comparison of every signature with every later one. -/
def comparisons : List ExperienceContextSignature → List ExperienceComparison
  | [] => []
  | sig :: rest => rest.map (compareSignatures sig) ++ comparisons rest

end Ajenda.Experience
