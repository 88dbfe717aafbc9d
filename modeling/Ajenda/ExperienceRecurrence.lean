import Ajenda.DisjointSets
import Ajenda.ExperienceSignatures

/-!
# Recurrence of experience

`evaluate_experience_set`: the eligibility of each episode inside its partition, the dependent
components of a partition, its evidence units, the assessment of their recurrence, and the
pattern candidates. An error is what the source raises.
-/
namespace Ajenda.Experience

inductive RecurrenceStrength
  | weak | emerging | supported | contested | invalidated
  deriving DecidableEq, Repr

inductive EvidenceContributionTier
  | strong | limited | ineligible
  deriving DecidableEq, Repr

inductive EvidenceUnitDirection
  | support | contradiction | neutral | ambiguous
  deriving DecidableEq, Repr

/-- A resolved signature with the signal of the episode it was derived from. -/
structure Observation where
  signature : ExperienceContextSignature
  signal : DecisionLearningSignal
  deriving DecidableEq, Repr

def Observation.id (o : Observation) : String := o.signature.episodeId

structure Eligibility where
  tier : EvidenceContributionTier
  direction : EvidenceUnitDirection
  reasonCodes : List String
  unclassified : Bool := false
  excluded : Bool := false
  deriving DecidableEq, Repr

structure EvidenceUnit where
  episodeIds : List String
  direction : EvidenceUnitDirection
  tier : EvidenceContributionTier
  independence : IndependenceStatus
  reasonCodes : List String
  deriving DecidableEq, Repr

structure RecurrenceAssessment where
  strength : RecurrenceStrength
  comparability : ComparabilityStatus
  independence : IndependenceStatus
  independentSupportCount : ℕ
  dependentSupportCount : ℕ
  strongIndependentContradictionCount : ℕ
  limitedSupportCount : ℕ
  limitedContradictionCount : ℕ
  dependentContradictionCount : ℕ
  ambiguousUnitCount : ℕ
  evidenceLimitation : Option String
  reasonCodes : List String
  deriving DecidableEq, Repr

/-! ## Eligibility -/

/-- `_base_direction`. -/
def baseDirection (signal : DecisionLearningSignal) : EvidenceUnitDirection :=
  match signal.effectiveness with
  | .highlyEffective | .effective | .partiallyEffective => .support
  | .ineffective | .counterproductive => .contradiction
  | .notExecuted | .notEvaluable | .insufficientEvidence => .neutral

def businessImpact (signal : DecisionLearningSignal) : Bool :=
  signal.episodeKind = some .businessImpact

/-- `_eligibility` of an episode without a partition. -/
def unclassifiedEligibility (sig : ExperienceContextSignature) : Eligibility :=
  let codes :=
    (if sig.interventionSemanticConflict then ["intervention_semantic_conflict"] else []) ++
    (if sig.subjectSemanticConflict then ["subject_semantic_conflict"] else []) ++
    (if sig.goalSemanticConflict then ["goal_semantic_conflict"] else []) ++
    (if nonEmpty sig.recommendationClass = none then ["missing_recommendation_class"]
      else if sig.recommendationClass = some "unknown" then
        ["unknown_recommendation_class_not_semantic"] else []) ++
    (if sig.exactGoalId = none then ["missing_goal_id_insufficient_goal_semantics"] else []) ++
    (if sig.semanticSubjectTypes = [] then ["missing_subject_type_semantics"] else [])
  { tier := .ineligible
    direction := .neutral
    reasonCodes := if codes = [] then ["semantic_context_insufficient"] else codes
    unclassified := true }

def excludedEligibility (codes : List String) : Eligibility :=
  { tier := .ineligible, direction := .neutral, reasonCodes := codes, excluded := true }

/-- `_eligibility` of an episode of a partition. -/
def eligibility (activeScopeConditions : List String) (o : Observation) : Eligibility :=
  let sig := o.signature
  let business := businessImpact o.signal
  let partialCodes := if sig.goalSemanticsPartial then ["kpi_only_goal_semantics_cap_recurrence"]
    else []
  if overlap sig.invalidationConditions activeScopeConditions then
    excludedEligibility (partialCodes ++ ["active_scope_matches_invalidation_condition"])
  else if sig.executionFidelity = .notExecuted then
    excludedEligibility (partialCodes ++ ["intervention_not_executed_not_counterexample"])
  else if sig.executionFidelity = .executionUnknown && !business then
    excludedEligibility (partialCodes ++ ["execution_unknown_blocks_recurrence_evidence"])
  else if sig.executionFidelity = .executedWithMaterialVariation then
    excludedEligibility (partialCodes ++ ["material_variation_not_same_intervention"])
  else
    let executionCodes := partialCodes ++
      (if sig.executionFidelity = .executionUnknown then ["business_impact_execution_not_asserted"]
        else []) ++
      (if sig.executionFidelity = .partiallyExecuted then ["partial_execution_limited_evidence"]
        else [])
    let unattributed := sig.attributionAssessment = .conflictingEvidence ∨
      sig.attributionAssessment = .insufficientEvidence ∨ sig.attributionAssessment = .notAssessed
    let association := business && sig.attributionAssessment = .notAssessed
    if unattributed ∧ !association then
      excludedEligibility
        (executionCodes ++ ["attribution_insufficient_or_conflicting_excluded"])
    else
      let codes := executionCodes ++
        (if unattributed then ["business_impact_non_causal_association"] else []) ++
        (if sig.attributionAssessment = .temporalAssociation then
          ["temporal_association_limited_evidence"] else []) ++
        (if sig.observationTimeProvenance = .sourceVerified then []
          else [sig.observationTimeProvenance.value ++ "_chronology_limited_evidence"]) ++
        (if sig.learningSignalStrength = .weak then ["weak_learning_signal_limited_evidence"]
          else if sig.learningSignalStrength = .candidate then
            if business then ["business_impact_candidate_association"]
            else ["candidate_learning_signal_limited_evidence"]
          else [])
      let limited := sig.goalSemanticsPartial || sig.executionFidelity = .partiallyExecuted ||
        sig.attributionAssessment = .temporalAssociation ||
        sig.observationTimeProvenance ≠ .sourceVerified || sig.learningSignalStrength = .weak ||
        (sig.learningSignalStrength = .candidate && !business)
      { tier := if limited then .limited else .strong
        direction := baseDirection o.signal
        reasonCodes := if codes = [] then ["strong_recurrence_evidence"] else codes }

/-! ## Components and evidence units -/

/-- `_build_hard_components`: the groups of episodes that depend on one another. The interpreter's
stack is not counted: the recursive `find` exhausts it on chains of about 1000 parents, which some
2000 episodes whose pairs are nested by their ids make. -/
def buildHardComponents (ids : List String) (cs : List ExperienceComparison) :
    List (List String) :=
  DisjointSets.components ids ((cs.filter fun c =>
    c.leftEpisodeId ∈ ids ∧ c.rightEpisodeId ∈ ids ∧ c.independence = .dependent).map fun c =>
      (c.leftEpisodeId, c.rightEpisodeId))

/-- `_component_independence`. -/
def componentIndependence (component : List String) (cs : List ExperienceComparison) :
    IndependenceStatus :=
  if 1 < component.length then .dependent
  else
    let statuses := (cs.filter fun c =>
      component.head? = some c.leftEpisodeId ∨ component.head? = some c.rightEpisodeId).map
        (·.independence)
    if .partiallyIndependent ∈ statuses then .partiallyIndependent
    else if .indeterminate ∈ statuses then .indeterminate
    else .independent

/-- `_merge_tiers`. -/
def mergeTiers (tiers : List EvidenceContributionTier) : EvidenceContributionTier :=
  if .ineligible ∈ tiers then .ineligible
  else if .limited ∈ tiers then .limited
  else .strong

/-- `_merge_directions`. -/
def mergeDirections (directions : List EvidenceUnitDirection) : EvidenceUnitDirection :=
  if .ambiguous ∈ directions then .ambiguous
  else if .support ∈ directions then
    if .contradiction ∈ directions then .ambiguous else .support
  else if .contradiction ∈ directions then .contradiction
  else .neutral

/-- One component of `_build_evidence_units`; a component without a usable episode is no unit. -/
def evidenceUnit (eligibilities : String → Option Eligibility) (cs : List ExperienceComparison)
    (component : List String) : Option EvidenceUnit :=
  let items := component.filterMap eligibilities
  let usable := items.filter (·.tier ≠ .ineligible)
  if usable = [] then none
  else some
    { episodeIds := component
      direction := mergeDirections (usable.map (·.direction))
      tier := mergeTiers (usable.map (·.tier))
      independence := componentIndependence component cs
      reasonCodes := sortedSet (items.flatMap (·.reasonCodes)) }

/-- `_build_evidence_units`. -/
def buildEvidenceUnits (components : List (List String))
    (eligibilities : String → Option Eligibility) (cs : List ExperienceComparison) :
    List EvidenceUnit :=
  components.filterMap (evidenceUnit eligibilities cs)

/-! ## Assessment -/

def supportUnits (units : List EvidenceUnit) : List EvidenceUnit :=
  units.filter (·.direction = .support)

def contradictionUnits (units : List EvidenceUnit) : List EvidenceUnit :=
  units.filter (·.direction = .contradiction)

def ambiguousUnits (units : List EvidenceUnit) : List EvidenceUnit :=
  units.filter (·.direction = .ambiguous)

def strongIndependent (units : List EvidenceUnit) : List EvidenceUnit :=
  units.filter fun u => u.tier = .strong ∧ u.independence = .independent

def limitedUnits (units : List EvidenceUnit) : List EvidenceUnit :=
  units.filter (·.tier = .limited)

def dependentUnits (units : List EvidenceUnit) : List EvidenceUnit :=
  units.filter (·.independence ≠ .independent)

def directionalUnits (units : List EvidenceUnit) : List EvidenceUnit :=
  units.filter fun u => u.direction = .support ∨ u.direction = .contradiction

/-- The strength `_assessment_from_units` reads off the units, with the code it adds. -/
def recurrenceStrength (units : List EvidenceUnit) : Option (RecurrenceStrength × List String) :=
  let strongSupport := strongIndependent (supportUnits units)
  let strongContradictions := strongIndependent (contradictionUnits units)
  if (directionalUnits units).length < 2 then none
  else if 2 ≤ strongContradictions.length ∧ strongSupport.length ≤ strongContradictions.length then
    some (.invalidated, ["repeated_strong_independent_contradictions"])
  else if strongContradictions ≠ [] ∧ (supportUnits units ≠ [] ∨ ambiguousUnits units ≠ []) then
    some (.contested, ["strong_independent_comparable_counterexample_present"])
  else if 3 ≤ strongSupport.length then some (.supported, [])
  else if 2 ≤ (supportUnits units).length then
    some (if strongSupport ≠ [] then .emerging else .weak, [])
  else if contradictionUnits units ≠ [] then some (.weak, [])
  else none

/-- The weakest independence among the units. -/
def unitsIndependence (units : List EvidenceUnit) : IndependenceStatus :=
  let statuses := units.map (·.independence)
  if .dependent ∈ statuses then .dependent
  else if .partiallyIndependent ∈ statuses then .partiallyIndependent
  else if .indeterminate ∈ statuses then .indeterminate
  else .independent

/-- `_assessment_from_units`. -/
def assessmentFromUnits (units : List EvidenceUnit) : Option RecurrenceAssessment :=
  let limitedSupport := limitedUnits (supportUnits units)
  let limitedContradictions := limitedUnits (contradictionUnits units)
  let dependentContradictions := dependentUnits (contradictionUnits units)
  let codes := sortedSet (units.flatMap (·.reasonCodes)) ++
    (if limitedSupport ≠ [] then ["limited_support_does_not_create_supported_recurrence"] else []) ++
    (if limitedContradictions ≠ [] then
      ["limited_contradiction_does_not_create_strong_invalidation"] else []) ++
    (if dependentContradictions ≠ [] then
      ["dependent_contradiction_does_not_create_strong_invalidation"] else []) ++
    (if ambiguousUnits units ≠ [] then ["dependent_component_contains_conflicting_directions"]
      else [])
  (recurrenceStrength units).map fun strength =>
    { strength := strength.1
      comparability := .comparable
      independence := unitsIndependence units
      independentSupportCount := (strongIndependent (supportUnits units)).length
      dependentSupportCount := (dependentUnits (supportUnits units)).length
      strongIndependentContradictionCount := (strongIndependent (contradictionUnits units)).length
      limitedSupportCount := limitedSupport.length
      limitedContradictionCount := limitedContradictions.length
      dependentContradictionCount := dependentContradictions.length
      ambiguousUnitCount := (ambiguousUnits units).length
      evidenceLimitation :=
        if limitedSupport ≠ [] ∨ limitedContradictions ≠ [] then some "limited_evidence_present"
        else none
      reasonCodes := (codes ++ strength.2).eraseDups }

end Ajenda.Experience
