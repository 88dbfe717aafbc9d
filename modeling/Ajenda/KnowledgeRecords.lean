import Ajenda.FrontierAuthority
import Ajenda.Fallible
import Ajenda.JsonContainment

/-!
# The knowledge ledger in its tables

The rows of the ledger, how they are read for one proposition and checked against the payloads
they carry, and `resolve_current_knowledge_state`. Parsing a payload is a parameter; a payload that
is only parsed is kept as it is read, the one that SQL looks into as it is stored.
-/
namespace Ajenda.Knowledge
open JsonValue (Json Jsonb)
open Ajenda.Experience (Datetime KpiSemanticSignature BusinessObjectType
  KnowledgeQualificationStatus)

section Payloads

def KnowledgeRelationshipType.value : KnowledgeRelationshipType → String
  | .associatedWithFavorableOutcome => "associated_with_favorable_outcome"

def statusValue : KnowledgeQualificationStatus → String
  | .insufficient => "insufficient"
  | .provisional => "provisional"
  | .qualified => "qualified"
  | .contested => "contested"
  | .invalidated => "invalidated"

def schemaVersion : String × Json := ("schema_version", .num (.finite 1))

def optionalText : Option String → Json
  | none => .null
  | some text => .str text

/-- `BusinessObjectSemanticSignature.model_dump(mode="json")`. -/
def dumpSubject (subject : BusinessObjectType) : Json :=
  .obj [schemaVersion, ("object_type", .str subject.value)]

/-- `KpiSemanticSignature.model_dump(mode="json")`. -/
def dumpKpi (kpi : KpiSemanticSignature) : Json :=
  .obj [schemaVersion, ("metric", .str kpi.metric), ("direction", .str kpi.direction.value),
    ("normalized_unit", optionalText kpi.normalizedUnit)]

/-- The fields of `KnowledgeProposition.model_dump(mode="json")`. -/
def propositionFields (p : KnowledgeProposition) : List (String × Json) :=
  [schemaVersion, ("proposition_key", .str p.propositionKey),
    ("subject_semantic_signatures", .arr (p.subjectSemanticSignatures.map dumpSubject)),
    ("intervention_key", .str p.interventionKey),
    ("objective_key", optionalText p.objectiveKey),
    ("kpi_semantic_signatures", .arr (p.kpiSemanticSignatures.map dumpKpi)),
    ("relationship_type", .str p.relationshipType.value),
    ("scope_conditions", .arr (p.scopeConditions.map .str)),
    ("invalidation_conditions", .arr (p.invalidationConditions.map .str))]

def dumpProposition (p : KnowledgeProposition) : Json := .obj (propositionFields p)

/-- What validating a stored payload gives, if it does not raise. -/
structure PayloadParsers where
  qualification : Json → Option KnowledgeQualificationResult
  artifact : Json → Option QualifiedKnowledgeArtifact

end Payloads

section Tables

structure KnowledgeQualificationRecord where
  id : String
  tenantId : String
  qualificationId : String
  propositionKey : String
  qualificationStatus : String
  sourceCandidateId : String
  evaluationWatermark : Option Datetime
  qualificationPayload : Json
  algorithm : String

structure KnowledgeArtifactRecord where
  id : String
  tenantId : String
  qualificationRecordId : String
  knowledgeId : String
  propositionKey : String
  qualificationId : String
  sourceCandidateId : String
  qualifiedThroughEvaluatedAt : Option Datetime
  propositionPayload : Jsonb
  artifactPayload : Json
  algorithm : String

/-- The two tables with their constraints. -/
structure KnowledgeLedger where
  qualifications : List KnowledgeQualificationRecord
  artifacts : List KnowledgeArtifactRecord
  qualificationKey : (qualifications.map (·.id)).Nodup
  artifactKey : (artifacts.map (·.id)).Nodup
  qualificationIdentity : (qualifications.map fun q => (q.tenantId, q.qualificationId)).Nodup
  artifactIdentity : (artifacts.map fun a => (a.tenantId, a.knowledgeId)).Nodup
  artifactQualification : (artifacts.map fun a => (a.tenantId, a.qualificationId)).Nodup
  linked : ∀ a ∈ artifacts, ∃ q ∈ qualifications,
    q.id = a.qualificationRecordId ∧ q.tenantId = a.tenantId

inductive KnowledgeError
  | integrity (message : String)
  | lifecycle (error : LifecycleError)
  deriving DecidableEq

variable (ledger : KnowledgeLedger) (tenantId : String)

/-- The rows that carry a proposition key. -/
def KnowledgeLedger.propositionKeys : List String :=
  (ledger.qualifications.filter (·.tenantId = tenantId)).map (·.propositionKey) ++
    (ledger.artifacts.filter (·.tenantId = tenantId)).map (·.propositionKey)

/-- `get_qualification_for_tenant`. -/
def KnowledgeLedger.qualification (qualificationId : String) :
    Option KnowledgeQualificationRecord :=
  ledger.qualifications.find? fun q => q.tenantId = tenantId ∧ q.qualificationId = qualificationId

/-- `list_qualifications_for_proposition`. -/
def KnowledgeLedger.qualificationsFor (propositionKey : String) :
    List KnowledgeQualificationRecord :=
  ledger.qualifications.filter fun q => q.tenantId = tenantId ∧ q.propositionKey = propositionKey

/-- `list_artifacts_for_qualification_record_ids`. -/
def KnowledgeLedger.artifactsOf (qualificationRecordIds : List String) :
    List KnowledgeArtifactRecord :=
  ledger.artifacts.filter fun a =>
    a.tenantId = tenantId ∧ a.qualificationRecordId ∈ qualificationRecordIds

/-- `list_artifacts_for_knowledge_ids`. -/
def KnowledgeLedger.artifactsFor (knowledgeIds : List String) : List KnowledgeArtifactRecord :=
  (ledger.artifacts.filter fun a =>
    a.tenantId = tenantId ∧ a.knowledgeId ∈ knowledgeIds).insertionSort
      fun a b => a.knowledgeId ≤ b.knowledgeId

end Tables

section CurrentState
variable (P : PayloadParsers)

def integrityError {α : Type} (message : String) : Except KnowledgeError α :=
  .error (.integrity message)

/-- `_validate_record_payload`. -/
def validateRecordPayload (record : KnowledgeQualificationRecord) :
    Except KnowledgeError KnowledgeQualificationResult :=
  match P.qualification record.qualificationPayload with
  | none => integrityError "stored qualification payload violates its owner contract"
  | some q =>
    if q.proposition = none ∨ record.qualificationId ≠ q.qualificationId ∨
        some record.propositionKey ≠ q.proposition.map (·.propositionKey) ∨
        record.qualificationStatus ≠ statusValue q.status ∨
        record.sourceCandidateId ≠ q.sourceCandidateId ∨
        record.evaluationWatermark.map inUtc ≠ q.evidenceSummary.latestEvaluatedAt.map inUtc ∨
        record.algorithm ≠ q.algorithm then
      integrityError "qualification record columns disagree with owner payload"
    else .ok q

/-- `_validate_artifact_record` of the lifecycle. -/
def validateLinkedArtifact (record : KnowledgeArtifactRecord)
    (qualification : KnowledgeQualificationRecord) :
    Except KnowledgeError QualifiedKnowledgeArtifact :=
  match P.artifact record.artifactPayload with
  | none => integrityError "stored artifact payload violates its owner contract"
  | some a =>
    if record.qualificationRecordId ≠ qualification.id ∨
        record.qualificationId ≠ qualification.qualificationId ∨
        a.qualificationId ≠ qualification.qualificationId ∨
        record.qualificationId ≠ a.qualificationId ∨
        record.knowledgeId ≠ a.knowledgeId ∨
        record.propositionKey ≠ qualification.propositionKey ∨
        record.propositionKey ≠ a.proposition.propositionKey ∨
        record.sourceCandidateId ≠ qualification.sourceCandidateId ∨
        record.sourceCandidateId ≠ a.sourceCandidateId ∨
        record.qualifiedThroughEvaluatedAt.map inUtc ≠ a.qualifiedThroughEvaluatedAt.map inUtc ∨
        record.algorithm ≠ a.algorithm ∨
        record.propositionPayload.loads.pyEq (dumpProposition a.proposition) = false then
      integrityError "artifact record columns disagree with owner payload"
    else .ok a

/-- The history item of a qualification row and its artifact row. -/
def historyItem (artifacts : List KnowledgeArtifactRecord) (record : KnowledgeQualificationRecord) :
    Except KnowledgeError HistoryItem := do
  let qualification ← validateRecordPayload P record
  let artifactRecord := artifacts.find? (·.qualificationRecordId = record.id)
  let artifact ← match artifactRecord with
    | none => pure none
    | some a => (validateLinkedArtifact P a record).map some
  if h : ledgerShape qualification record.evaluationWatermark (artifactRecord.map (·.id)) artifact =
      none then
    return ⟨record.id, qualification, record.evaluationWatermark, artifactRecord.map (·.id),
      artifact, h⟩
  else integrityError "ledger structure violates lifecycle contract"

/-- `resolve_current_knowledge_state`. -/
def resolveCurrentKnowledgeState (ledger : KnowledgeLedger) (tenantId propositionKey : String) :
    Except KnowledgeError CurrentKnowledgeState := do
  let qualifications := ledger.qualificationsFor tenantId propositionKey
  let artifacts := ledger.artifactsOf tenantId (qualifications.map (·.id))
  if ¬(artifacts.map (·.qualificationRecordId)).Nodup then
    integrityError "qualification record has multiple artifact records"
  else
    let history ← qualifications.mapM (historyItem P artifacts)
    if ∃ a ∈ artifacts, a.qualificationRecordId ∉ qualifications.map (·.id) then
      integrityError "artifact rows are not linked to selected qualification history"
    else
      match resolveKnowledgeLifecycle history (some propositionKey) with
      | .ok state => .ok state
      | .error e => .error (.lifecycle e)

variable {P} {ledger : KnowledgeLedger} {tenantId propositionKey : String}
  {state : CurrentKnowledgeState}

theorem resolveKnowledgeLifecycle_key {history : List HistoryItem}
    (h : resolveKnowledgeLifecycle history (some propositionKey) = .ok state) :
    state.propositionKey = propositionKey := by
  unfold resolveKnowledgeLifecycle at h
  split_ifs at h with hnil
  · cases h
    rfl
  · split at h
    next key hkeys =>
      split_ifs at h with hasked
      have hkey : key = propositionKey := by
        by_contra hne
        exact hasked ⟨by simp, by simpa using Ne.symm hne⟩
      obtain ⟨distinct, -, h⟩ := Fallible.bind_eq_ok.1 h
      obtain ⟨frontier, -, h⟩ := Fallible.bind_eq_ok.1 h
      cases h
      exact hkey
    next => cases h

/-- The state is that of the proposition that was asked for. -/
theorem resolveCurrent_key
    (h : resolveCurrentKnowledgeState P ledger tenantId propositionKey = .ok state) :
    state.propositionKey = propositionKey := by
  unfold resolveCurrentKnowledgeState at h
  simp only at h
  split_ifs at h
  · obtain ⟨history, -, h⟩ := Fallible.bind_eq_ok.1 h
    cases h
  · obtain ⟨history, -, h⟩ := Fallible.bind_eq_ok.1 h
    split at h
    next state' hresolve =>
      cases h
      exact resolveKnowledgeLifecycle_key hresolve
    next => cases h
  · cases h

end CurrentState

end Ajenda.Knowledge
