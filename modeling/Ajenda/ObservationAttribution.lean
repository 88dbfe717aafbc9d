import Mathlib.Algebra.Order.Ring.Rat
import Ajenda.ExperienceEvaluation

/-!
# Observation times and attribution

`resolve_observation_timing` and `evaluate_attribution_evidence`: the strongest time given for an
observation, and how far evidence attributes the observed change to an action.
-/
namespace Ajenda.Outcome
open Experience (Datetime AttributionAssessment ObservationTimeProvenance CaseFolding sortedSet
  mem_sortedSet orderedUnique)
open Ajenda.Runtime (strip)

section Timing

/-- A time with an offset from UTC. -/
abbrev AwareTime := { t : Datetime // t.aware = true }

inductive ObservationVerificationBasis
  | sourceSuppliedUnderContract | independentlyVerified | systemDerived | callerAsserted | unknown
  deriving DecidableEq, Repr

def allowedBasis : ObservationTimeProvenance → ObservationVerificationBasis
  | .sourceVerified => .sourceSuppliedUnderContract
  | .derived => .systemDerived
  | .callerAsserted => .callerAsserted
  | .unknown => .unknown

def instantOf (t : Option AwareTime) : Option Int := t.map (·.1.instant)

/-- The time a provenance stands for, or what is wrong with the times next to it. -/
def expectedTime (provenance : ObservationTimeProvenance) (source captured asserted : Option AwareTime) :
    Except String (Option AwareTime) :=
  match provenance with
  | .sourceVerified => .ok source
  | .derived =>
    if source ≠ none then .error "derived chronology cannot ignore source_observed_at"
    else .ok captured
  | .callerAsserted =>
    if source ≠ none ∨ captured ≠ none then
      .error "caller-asserted chronology cannot ignore a stronger timestamp"
    else .ok asserted
  | .unknown =>
    if source ≠ none ∨ captured ≠ none ∨ asserted ≠ none then
      .error "unknown chronology cannot contain an observation timestamp"
    else .ok none

/-- `validate_resolution`. -/
def resolutionError (provenance : ObservationTimeProvenance)
    (source captured asserted resolved : Option AwareTime) (basis : ObservationVerificationBasis) :
    Option String :=
  match expectedTime provenance source captured asserted with
  | .error message => some message
  | .ok expected =>
    if expected = none ∧ provenance ≠ .unknown then
      some (provenance.value ++ " chronology requires its timestamp")
    else if instantOf resolved ≠ instantOf expected then
      some "resolved_observed_at must match the strongest available chronology"
    else if basis ≠ allowedBasis provenance then
      some "verification_basis must truthfully match chronology provenance"
    else none

structure ObservationTiming where
  sourceObservedAt : Option AwareTime
  capturedAt : Option AwareTime
  assertedObservedAt : Option AwareTime
  resolvedObservedAt : Option AwareTime
  provenance : ObservationTimeProvenance
  verificationBasis : ObservationVerificationBasis
  explanationCodes : List String
  resolution : resolutionError provenance sourceObservedAt capturedAt assertedObservedAt
    resolvedObservedAt verificationBasis = none

/-- `resolve_observation_timing`. -/
def resolveObservationTiming (source captured asserted : Option AwareTime) : ObservationTiming :=
  match source, captured, asserted with
  | some t, captured, asserted =>
    { sourceObservedAt := some t
      capturedAt := captured
      assertedObservedAt := asserted
      resolvedObservedAt := some t
      provenance := .sourceVerified
      verificationBasis := allowedBasis .sourceVerified
      explanationCodes := ["source_observation_time_selected"]
      resolution := by simp [resolutionError, expectedTime] }
  | none, some t, asserted =>
    { sourceObservedAt := none
      capturedAt := some t
      assertedObservedAt := asserted
      resolvedObservedAt := some t
      provenance := .derived
      verificationBasis := allowedBasis .derived
      explanationCodes := ["capture_time_used_as_derived_observation_bound"]
      resolution := by simp [resolutionError, expectedTime] }
  | none, none, some t =>
    { sourceObservedAt := none
      capturedAt := none
      assertedObservedAt := some t
      resolvedObservedAt := some t
      provenance := .callerAsserted
      verificationBasis := allowedBasis .callerAsserted
      explanationCodes := ["caller_asserted_observation_time_selected"]
      resolution := by simp [resolutionError, expectedTime] }
  | none, none, none =>
    { sourceObservedAt := none
      capturedAt := none
      assertedObservedAt := none
      resolvedObservedAt := none
      provenance := .unknown
      verificationBasis := allowedBasis .unknown
      explanationCodes := ["observation_time_unknown"]
      resolution := by simp [resolutionError, expectedTime] }

end Timing

section Attribution

inductive AttributionOrdering
  | verifiedAfterExecution | derivedAfterExecution | contradicted | unverifiable
  deriving DecidableEq, Repr

/-- The entries are not blank, stripped, and come once. -/
def Normalized (xs : List String) : Prop := xs.Nodup ∧ ∀ x ∈ xs, strip x = x ∧ x ≠ ""

structure AttributionEvidenceInput where
  executedAt : Option AwareTime := none
  executionEvidenceIds : List String := []
  expectedChangeDimensions : List String := []
  observedChangeDimensions : List String := []
  competingExplanations : List String := []
  conflictingEvidenceIds : List String := []
  confidence : ℚ := 0
  lists : ∀ xs ∈ [executionEvidenceIds, expectedChangeDimensions, observedChangeDimensions,
    competingExplanations, conflictingEvidenceIds], Normalized xs
  unit : 0 ≤ confidence ∧ confidence ≤ 1

def orderingOf (executedAt : Option AwareTime) (timing : ObservationTiming) :
    AttributionOrdering × String :=
  match executedAt, timing.resolvedObservedAt with
  | some executed, some observed =>
    if timing.provenance = .callerAsserted ∨ timing.provenance = .unknown then
      (.unverifiable, "chronology_unverifiable")
    else if observed.1.instant < executed.1.instant then
      (.contradicted, "observation_precedes_execution")
    else if observed.1.instant = executed.1.instant then
      (.unverifiable, "observation_not_strictly_after_execution")
    else if timing.provenance = .derived then
      (.derivedAfterExecution, "derived_capture_follows_execution")
    else (.verifiedAfterExecution, "execution_precedes_observation")
  | _, _ => (.unverifiable, "chronology_unverifiable")

variable (F : CaseFolding)

/-- The dimensions that were expected and observed, folded and in order. -/
def matchingDimensions (evidence : AttributionEvidenceInput) : List String :=
  (sortedSet (evidence.expectedChangeDimensions.map F.casefold)).filter
    (· ∈ evidence.observedChangeDimensions.map F.casefold)

def resultingAttribution (evidence : AttributionEvidenceInput) (ordering : AttributionOrdering) :
    AttributionAssessment × List String :=
  if evidence.conflictingEvidenceIds ≠ [] ∨ ordering = .contradicted then
    (.conflictingEvidence, ["conflicting_attribution_evidence"])
  else if evidence.executionEvidenceIds = [] then
    (.insufficientEvidence, ["execution_evidence_missing"])
  else if ordering = .unverifiable then
    (.insufficientEvidence, ["unverifiable_chronology_blocks_contribution"])
  else if evidence.expectedChangeDimensions = [] ∨ evidence.observedChangeDimensions = [] then
    (.insufficientEvidence, ["expected_or_observed_dimensions_missing"])
  else if matchingDimensions F evidence = [] then
    (.insufficientEvidence, ["expected_observed_dimensions_do_not_match"])
  else if ordering = .derivedAfterExecution then
    (.temporalAssociation, ["derived_chronology_caps_at_temporal_association"])
  else if evidence.competingExplanations ≠ [] then
    (.temporalAssociation, ["competing_explanations_cap_at_temporal_association"])
  else if evidence.confidence < 7 / 10 then
    (.temporalAssociation, ["confidence_below_supported_contribution_threshold"])
  else
    (.supportedContribution, ["execution_evidence_present", "expected_observed_dimensions_match"])

structure AttributionAssessmentEvidence extends AttributionEvidenceInput where
  observationTiming : ObservationTiming
  ordering : AttributionOrdering
  matchingDimensions : List String
  explanationCodes : List String
  resultingAttribution : AttributionAssessment

/-- `evaluate_attribution_evidence`. -/
def evaluateAttributionEvidence (evidence : AttributionEvidenceInput) (timing : ObservationTiming) :
    AttributionAssessmentEvidence :=
  let ordering := orderingOf evidence.executedAt timing
  let resulting := resultingAttribution F evidence ordering.1
  { evidence with
    observationTiming := timing
    ordering := ordering.1
    matchingDimensions := matchingDimensions F evidence
    explanationCodes :=
      orderedUnique (ordering.2 :: resulting.2 ++ ["non_causal_attribution_only"])
    resultingAttribution := resulting.1 }

variable {F} {evidence : AttributionEvidenceInput} {timing : ObservationTiming}

end Attribution

end Ajenda.Outcome
