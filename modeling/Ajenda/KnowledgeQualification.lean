import Ajenda.ExperienceEvaluation

/-!
# Knowledge qualification

`qualify_pattern_knowledge`: the eight gates a pattern candidate passes and the status they
give. The hashed identifiers, the proposition and the copied evidence summary are left out;
none of them decides the status.
-/
namespace Ajenda.Experience

inductive KnowledgeQualificationStatus
  | insufficient | provisional | qualified | contested | invalidated
  deriving DecidableEq, Repr

inductive QualificationGateDecision
  | pass | capProvisional | fail
  deriving DecidableEq, Repr

structure QualificationGateResult where
  decision : QualificationGateDecision
  reasonCodes : List String
  deriving DecidableEq, Repr

structure KnowledgeQualificationGates where
  semanticIdentityGate : QualificationGateResult
  interventionAuthorityGate : QualificationGateResult
  goalAuthorityGate : QualificationGateResult
  recurrenceGate : QualificationGateResult
  independentSupportGate : QualificationGateResult
  contradictionGate : QualificationGateResult
  scopeGate : QualificationGateResult
  temporalProvenanceGate : QualificationGateResult
  deriving DecidableEq, Repr

structure KnowledgeQualificationResult where
  status : KnowledgeQualificationStatus
  gates : KnowledgeQualificationGates
  reasonCodes : List String
  deriving DecidableEq, Repr

def RecurrenceStrength.value : RecurrenceStrength → String
  | .weak => "weak"
  | .emerging => "emerging"
  | .supported => "supported"
  | .contested => "contested"
  | .invalidated => "invalidated"

/-- `_gate`. -/
def gate (decision : QualificationGateDecision) (codes : List String) :
    QualificationGateResult :=
  ⟨decision, sortedSet codes⟩

def semanticCodes (candidate : ExperiencePatternCandidate) : List String :=
  match candidate.semanticContext with
  | none => ["missing_typed_semantic_context"]
  | some context =>
    (if context.subjectSemanticSignatures = [] then ["missing_subject_semantics"] else []) ++
    (if context.interventionKey = "" then ["missing_intervention_semantics"] else []) ++
    (if nonEmpty context.objectiveKey = none ∧ context.commonKpiSemanticSignatures = [] then
      ["portable_goal_semantics_absent"] else []) ++
    (if context.interventionSemanticBases = [] ∨ context.goalSemanticBases = [] ∨
        context.interventionKey ≠ candidate.recommendationClass ∨
        context.scopeConditions ≠ candidate.commonScopeConditions ∨
        context.invalidationConditions ≠ candidate.invalidationConditions then
      ["semantic_context_structurally_contradictory"] else [])

def semanticGate (candidate : ExperiencePatternCandidate) : QualificationGateResult :=
  let codes := semanticCodes candidate
  if codes = [] then gate .pass ["typed_semantic_identity_present"] else gate .fail codes

def interventionGate (candidate : ExperiencePatternCandidate) : QualificationGateResult :=
  let bases := (candidate.semanticContext.map (·.interventionSemanticBases)).getD []
  if bases = [] then gate .fail ["intervention_authority_absent"]
  else if ∀ b ∈ bases, b = .decisionOwner then gate .pass ["decision_owner_intervention"]
  else gate .capProvisional ["legacy_intervention_semantics_present"]

def goalGate (candidate : ExperiencePatternCandidate) : QualificationGateResult :=
  let bases := (candidate.semanticContext.map (·.goalSemanticBases)).getD []
  let objective := candidate.semanticContext.bind fun context => nonEmpty context.objectiveKey
  -- no basis at all, or the exact instance only
  if ∀ b ∈ bases, b = .exactGoalInstanceFallback then gate .fail ["exact_goal_instance_not_portable"]
  else if objective.isSome ∧ ∀ b ∈ bases, b = .ownerExplicitObjective then
    gate .pass ["owner_explicit_objective_semantics"]
  else gate .capProvisional ["conservative_goal_semantic_authority"]

def recurrenceDecision : RecurrenceStrength → QualificationGateDecision
  | .weak => .fail
  | .emerging => .capProvisional
  | .supported => .pass
  | .contested => .fail
  | .invalidated => .fail

def recurrenceGate (candidate : ExperiencePatternCandidate) : QualificationGateResult :=
  gate (recurrenceDecision candidate.recurrence.strength)
    ["recurrence_" ++ candidate.recurrence.strength.value]

def supportGate (candidate : ExperiencePatternCandidate) : QualificationGateResult :=
  if 3 ≤ candidate.recurrence.independentSupportCount then
    gate .pass ["independent_support_threshold_met"]
  else gate .capProvisional ["fewer_than_three_independent_support_units"]

def contradictionGate (candidate : ExperiencePatternCandidate) : QualificationGateResult :=
  if candidate.recurrence.strength = .supported ∧
      0 < candidate.recurrence.strongIndependentContradictionCount then
    gate .fail ["recurrence_contract_inconsistent"]
  else gate .pass ["no_upstream_contract_contradiction"]

def scopeGate (candidate : ExperiencePatternCandidate) : QualificationGateResult :=
  let scope := (candidate.semanticContext.map (·.scopeConditions)).getD []
  if candidate.conflictingScopeConditions ≠ [] then gate .fail ["conflicting_scope_conditions"]
  else if scope = [] then gate .capProvisional ["unbounded_scope"]
  else gate .pass ["bounded_common_scope"]

def temporalInvalid (candidate : ExperiencePatternCandidate) : Except EvaluationError Bool :=
  match candidate.earliestEvaluatedAt, candidate.latestEvaluatedAt with
  | some first, some last => Datetime.lt last first
  | _, _ => .ok false

def temporalGate (invalid : Bool) : QualificationGateResult :=
  if invalid then gate .fail ["invalid_evaluation_time_order"]
  else gate .pass ["evaluation_time_order_valid"]

def KnowledgeQualificationGates.all (gates : KnowledgeQualificationGates) :
    List QualificationGateResult :=
  [gates.semanticIdentityGate, gates.interventionAuthorityGate, gates.goalAuthorityGate,
    gates.recurrenceGate, gates.independentSupportGate, gates.contradictionGate, gates.scopeGate,
    gates.temporalProvenanceGate]

def qualificationStatus (strength : RecurrenceStrength) (gates : KnowledgeQualificationGates) :
    KnowledgeQualificationStatus :=
  let decisions := gates.all.map (·.decision)
  if strength = .invalidated then .invalidated
  else if strength = .contested then .contested
  else if .fail ∈ decisions then .insufficient
  else if .capProvisional ∈ decisions then .provisional
  else .qualified

def qualificationGates (candidate : ExperiencePatternCandidate) (invalid : Bool) :
    KnowledgeQualificationGates where
  semanticIdentityGate := semanticGate candidate
  interventionAuthorityGate := interventionGate candidate
  goalAuthorityGate := goalGate candidate
  recurrenceGate := recurrenceGate candidate
  independentSupportGate := supportGate candidate
  contradictionGate := contradictionGate candidate
  scopeGate := scopeGate candidate
  temporalProvenanceGate := temporalGate invalid

/-- `qualify_pattern_knowledge`. -/
def qualifyPatternKnowledge (candidate : ExperiencePatternCandidate) :
    Except EvaluationError KnowledgeQualificationResult := do
  let invalid ← temporalInvalid candidate
  let gates := qualificationGates candidate invalid
  return {
    status := qualificationStatus candidate.recurrence.strength gates
    gates := gates
    reasonCodes := sortedSet (gates.all.flatMap (·.reasonCodes)) }

end Ajenda.Experience
