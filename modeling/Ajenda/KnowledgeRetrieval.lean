import Ajenda.KnowledgeRecords

/-!
# The retrieval of current knowledge

`retrieve_current_knowledge` narrows the ledger to candidate propositions in SQL, resolves the
state of each and matches it against the query. The id of a result is the hash of its payload and
kept as the payload.
-/
namespace Ajenda.Knowledge
open JsonValue (Json Jsonb)
open Ajenda.Experience (BusinessObjectType GoalSemanticSignature KpiSemanticSignature
  KnowledgeLifecycleStatus sortedSet)

section Goals

inductive GoalSemanticComparisonStatus
  | equivalent | partiallyEquivalent | notEquivalent | insufficientSemantics
  deriving DecidableEq

structure GoalSemanticComparison where
  status : GoalSemanticComparisonStatus
  reasonCodes : List String
  deriving DecidableEq

/-- `compare_goal_semantics`. -/
def compareGoalSemantics (left right : GoalSemanticSignature) : GoalSemanticComparison :=
  match left.objectiveKey, right.objectiveKey with
  | some l, some r =>
    if l = r then ⟨.equivalent, ["matching_explicit_objective_key"]⟩
    else ⟨.notEquivalent, ["different_explicit_objective_key"]⟩
  | _, _ =>
    if left.kpis ≠ [] ∧ right.kpis ≠ [] then
      if left.kpis = right.kpis then
        ⟨.partiallyEquivalent, ["matching_kpi_semantics_without_complete_objective_identity"]⟩
      else ⟨.notEquivalent, ["different_kpi_semantics"]⟩
    else ⟨.insufficientSemantics, ["objective_and_kpi_semantics_insufficient"]⟩

end Goals

section Query

/-- A query that names a subject, a relationship and a goal. -/
structure KnowledgeRetrievalQuery where
  subjectSemanticSignatures : List BusinessObjectType
  goalSemanticSignature : GoalSemanticSignature
  interventionKeys : List String
  relationshipTypes : List KnowledgeRelationshipType
  subjects : subjectSemanticSignatures ≠ []
  goal : goalSemanticSignature.objectiveKey ≠ none ∨ goalSemanticSignature.kpis ≠ []
  relationships : relationshipTypes ≠ []

variable (text : Jsonb → String)

/-- The clauses of `list_candidate_proposition_keys_for_retrieval` on one row of the tenant. -/
def isCandidate (query : KnowledgeRetrievalQuery) (row : KnowledgeArtifactRecord) : Bool :=
  let payload := row.propositionPayload
  let goal := query.goalSemanticSignature
  payload.exact.contains (.obj [("subject_semantic_signatures",
      .arr (query.subjectSemanticSignatures.map dumpSubject))]) &&
    (payload.fieldText text "relationship_type").any
      (· ∈ query.relationshipTypes.map (·.value)) &&
    (goal.objectiveKey.any (fun key => payload.fieldText text "objective_key" = some key) ||
      (goal.kpis ≠ [] && payload.exact.contains (.obj [("kpi_semantic_signatures",
        .arr (goal.kpis.map dumpKpi))]))) &&
    (query.interventionKeys = [] ||
      (payload.fieldText text "intervention_key").any (· ∈ query.interventionKeys))

/-- `list_candidate_proposition_keys_for_retrieval`. -/
def candidatePropositionKeys (ledger : KnowledgeLedger) (tenantId : String)
    (query : KnowledgeRetrievalQuery) : List String :=
  sortedSet ((ledger.artifacts.filter fun row =>
    row.tenantId = tenantId && isCandidate text query row).map (·.propositionKey))

end Query

section Matching

structure RetrievedKnowledgeMatch where
  proposition : KnowledgeProposition
  currentState : CurrentKnowledgeState
  authoritativeArtifacts : List QualifiedKnowledgeArtifact
  authoritativeQualifications : List KnowledgeQualificationResult
  goalComparison : GoalSemanticComparison
  interventionExact : Bool
  reasonCodes : List String
  epistemicLimits : List String

variable (query : KnowledgeRetrievalQuery) (state : CurrentKnowledgeState)
  (artifacts : List QualifiedKnowledgeArtifact)
  (qualifications : List KnowledgeQualificationResult)

def CurrentKnowledgeState.hasAuthority : Bool :=
  state.lifecycleStatus = .active && state.authoritativeKnowledgeIds ≠ []

def orderedArtifacts : List QualifiedKnowledgeArtifact :=
  artifacts.insertionSort fun a b => a.knowledgeId ≤ b.knowledgeId

def orderedQualifications : List KnowledgeQualificationResult :=
  qualifications.insertionSort fun a b => a.qualificationId ≤ b.qualificationId

/-- The qualifications are those of the artifacts. -/
def qualificationsAgree : Bool :=
  (orderedQualifications qualifications).map (·.qualificationId) =
      sorted (artifacts.map (·.qualificationId)) &&
    qualifications.all fun q =>
      artifacts.any fun a => q.qualifiedKnowledge.map (·.inUtc) = some a.inUtc

/-- The proposition of authoritative artifacts that agree with the state. -/
def authoritativeProposition : Except KnowledgeError KnowledgeProposition :=
  let expected := sorted state.authoritativeKnowledgeIds
  if (orderedArtifacts artifacts).map (·.knowledgeId) ≠ expected ∨ ¬expected.Nodup then
    integrityError "authoritative artifacts disagree with lifecycle authority"
  else
    match (artifacts.map (·.proposition)).dedup with
    | [proposition] =>
      if proposition.propositionKey ≠ state.propositionKey then
        integrityError "authoritative artifact proposition disagrees with lifecycle authority"
      else if qualifications ≠ [] ∧ qualificationsAgree artifacts qualifications = false then
        integrityError "authoritative qualifications disagree with retrieved artifacts"
      else .ok proposition
    | _ => integrityError "authoritative artifacts disagree on proposition"

def propositionGoal (p : KnowledgeProposition) : GoalSemanticSignature :=
  ⟨p.objectiveKey, p.kpiSemanticSignatures⟩

/-- The subjects, the relationship, the intervention and the goal of the proposition answer the
query. -/
def answers (p : KnowledgeProposition) : Bool :=
  ((query.subjectSemanticSignatures.all (· ∈ p.subjectSemanticSignatures)) &&
      (p.subjectSemanticSignatures.all (· ∈ query.subjectSemanticSignatures))) &&
    p.relationshipType ∈ query.relationshipTypes &&
    (query.interventionKeys = [] || p.interventionKey ∈ query.interventionKeys) &&
    (compareGoalSemantics query.goalSemanticSignature (propositionGoal p)).status ∈
      [.equivalent, .partiallyEquivalent]

def matchLimits (p : KnowledgeProposition) : List String :=
  let goal := compareGoalSemantics query.goalSemanticSignature (propositionGoal p)
  sortedSet (state.epistemicLimits ++
    (if p.scopeConditions ≠ [] then ["scope_conditions_not_evaluated"] else []) ++
    (if p.invalidationConditions ≠ [] then ["invalidation_conditions_not_evaluated"] else []) ++
    if goal.status = .partiallyEquivalent then ["partial_goal_equivalence"] else [])

/-- `match_current_knowledge`. -/
def matchCurrentKnowledge : Except KnowledgeError (Option RetrievedKnowledgeMatch) :=
  if state.hasAuthority = false then .ok none
  else do
    let proposition ← authoritativeProposition state artifacts qualifications
    if answers query proposition then
      let goal := compareGoalSemantics query.goalSemanticSignature (propositionGoal proposition)
      return some {
        proposition := proposition
        currentState := state
        authoritativeArtifacts := orderedArtifacts artifacts
        authoritativeQualifications := orderedQualifications qualifications
        goalComparison := goal
        interventionExact := query.interventionKeys ≠ []
        reasonCodes := sortedSet goal.reasonCodes
        epistemicLimits := matchLimits query state proposition }
    else return none

end Matching

section Retrieval
variable (P : PayloadParsers) (text : Jsonb → String)

/-- `_validate_artifact_record` of the retrieval. -/
def validateArtifactRecord (record : KnowledgeArtifactRecord) :
    Except KnowledgeError QualifiedKnowledgeArtifact :=
  match P.artifact record.artifactPayload with
  | none => integrityError "stored artifact payload violates its owner contract"
  | some a =>
    if record.knowledgeId ≠ a.knowledgeId ∨
        record.propositionKey ≠ a.proposition.propositionKey ∨
        record.qualificationId ≠ a.qualificationId ∨
        record.sourceCandidateId ≠ a.sourceCandidateId ∨
        record.algorithm ≠ a.algorithm ∨
        record.propositionPayload.loads.pyEq (dumpProposition a.proposition) = false then
      integrityError "artifact record columns disagree with owner payload"
    else .ok a

/-- `_validate_qualification_record`. -/
def validateQualificationRecord (record : KnowledgeQualificationRecord) :
    Except KnowledgeError KnowledgeQualificationResult :=
  match P.qualification record.qualificationPayload with
  | none => integrityError "stored qualification payload violates its owner contract"
  | some q =>
    if record.qualificationId ≠ q.qualificationId ∨
        some record.propositionKey ≠ q.proposition.map (·.propositionKey) ∨
        record.sourceCandidateId ≠ q.sourceCandidateId ∨
        record.algorithm ≠ q.algorithm then
      integrityError "qualification record columns disagree with owner payload"
    else .ok q

def accessible (ledger : KnowledgeLedger) (tenantId : String) (a : QualifiedKnowledgeArtifact) :
    Except KnowledgeError KnowledgeQualificationRecord :=
  match ledger.qualification tenantId a.qualificationId with
  | none => integrityError "authoritative artifact qualification is inaccessible"
  | some record => .ok record

/-- The authoritative artifacts of a state and their qualifications, validated. -/
def authoritativeRecords (ledger : KnowledgeLedger) (tenantId : String)
    (state : CurrentKnowledgeState) : Except KnowledgeError
      (List QualifiedKnowledgeArtifact × List KnowledgeQualificationResult) := do
  let artifacts ← (ledger.artifactsFor tenantId state.authoritativeKnowledgeIds).mapM
    (validateArtifactRecord P)
  let records ← artifacts.mapM (accessible ledger tenantId)
  let qualifications ← records.mapM (validateQualificationRecord P)
  return (artifacts, qualifications)

/-- One candidate: its state, what was loaded for it and its match. -/
structure Inspected where
  state : CurrentKnowledgeState
  loaded : List QualifiedKnowledgeArtifact
  found : Option RetrievedKnowledgeMatch

/-- One turn of the loop over the candidates. -/
def inspectCandidate (ledger : KnowledgeLedger) (tenantId : String)
    (query : KnowledgeRetrievalQuery) (key : String) : Except KnowledgeError Inspected := do
  let state ← resolveCurrentKnowledgeState P ledger tenantId key
  if state.hasAuthority then
    let records ← authoritativeRecords P ledger tenantId state
    let found ← matchCurrentKnowledge query state records.1 records.2
    return ⟨state, records.1, found⟩
  else return ⟨state, [], none⟩

structure InspectionTrace where
  candidatePropositionKeys : List String
  lifecycleProjectionIds : List ProjectionPayload
  authoritativeQualificationIds : List String
  artifactKnowledgeIdsLoaded : List String
  lifecycleStates : List CurrentKnowledgeState

structure RetrievalPayload where
  query : KnowledgeRetrievalQuery
  found : List (String × ProjectionPayload × List String)

structure KnowledgeRetrievalResult where
  query : KnowledgeRetrievalQuery
  found : List RetrievedKnowledgeMatch
  candidatePropositionCount : ℕ
  activePropositionCount : ℕ
  semanticMatchCount : ℕ
  retrievalId : RetrievalPayload
  inspectionTrace : InspectionTrace
  reasonCodes : List String
  epistemicLimits : List String

def orderedMatches (found : List RetrievedKnowledgeMatch) : List RetrievedKnowledgeMatch :=
  found.insertionSort fun a b => a.proposition.propositionKey ≤ b.proposition.propositionKey

/-- `_retrieval_id`, before hashing. -/
def retrievalPayload (query : KnowledgeRetrievalQuery) (found : List RetrievedKnowledgeMatch) :
    RetrievalPayload where
  query := query
  found := (orderedMatches found).map fun m =>
    (m.proposition.propositionKey, m.currentState.lifecycleProjectionId,
      sorted m.currentState.authoritativeKnowledgeIds)

/-- `retrieve_current_knowledge`. -/
def retrieveCurrentKnowledge (ledger : KnowledgeLedger) (tenantId : String)
    (query : KnowledgeRetrievalQuery) : Except KnowledgeError KnowledgeRetrievalResult := do
  let keys := candidatePropositionKeys text ledger tenantId query
  let inspected ← keys.mapM (inspectCandidate P ledger tenantId query)
  let found := orderedMatches (inspected.filterMap (·.found))
  return {
    query := query
    found := found
    candidatePropositionCount := keys.length
    activePropositionCount := (inspected.filter (·.state.hasAuthority)).length
    semanticMatchCount := found.length
    retrievalId := retrievalPayload query found
    inspectionTrace := {
      candidatePropositionKeys := keys
      lifecycleProjectionIds := inspected.map (·.state.lifecycleProjectionId)
      authoritativeQualificationIds :=
        sortedSet (inspected.flatMap (·.state.authoritativeQualificationIds))
      artifactKnowledgeIdsLoaded :=
        sortedSet (inspected.flatMap fun i => i.loaded.map (·.knowledgeId))
      lifecycleStates := inspected.map (·.state) }
    reasonCodes := if found = [] then ["no_current_semantic_knowledge_match"] else []
    epistemicLimits := sortedSet (found.flatMap (·.epistemicLimits)) }

end Retrieval

end Ajenda.Knowledge
