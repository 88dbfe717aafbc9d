import Ajenda.GoalProgress
import Ajenda.MissionInputBinding
import Ajenda.TransitionSystem
import Mathlib.Data.List.MinMax
import Mathlib.Data.List.Sort
import Mathlib.Data.String.Basic

/-!
# Recognising a goal gap as a business need

The store of one tenant: its observations, measurements and need revisions, only ever
appended; a row's id is its position. A digest is kept as what was hashed, so that two are
equal when their preimages are. `ingest_measurement` records a measurement and hands it to
`recognize_goal_gap`, which looks for an active need of the same identity and appends a
revision to it, or to the need whose id is hashed from the identity. PostgreSQL refuses a row
whose texts are too long for their columns or hold a NUL character; this is modelled for the rows
of an ingestion, any other call that meets it leaves the store as a call that is not made does.
-/
namespace Ajenda.NeedRecognition
open JsonValue GoalProgress TransitionSystem

structure BusinessObjectRef where
  objectType : String
  objectId : String
  deriving DecidableEq

def BusinessObjectRef.dump (ref : BusinessObjectRef) : Json :=
  .obj [("schema_version", .num (.finite 1)), ("object_type", .str ref.objectType),
    ("object_id", .str ref.objectId)]

/-- A goal as its validators admit it. -/
structure Goal where
  goalId : String
  objectiveKey : Option String
  name : String
  subjectRefs : List BusinessObjectRef
  named : Runtime.strip goalId ≠ "" ∧ ∀ key ∈ objectiveKey, Runtime.strip key ≠ ""

/-- A timestamp; `offset` is `None` for a naive one. -/
structure Timestamp where
  instant : ℤ
  offset : Option ℤ
  deriving DecidableEq

/-- What identifies a measurement. -/
structure MeasurementPayload where
  goalId : String
  objectiveKey : Option String
  subjects : List Json
  source : Json
  sourceVersion : String
  periodStart : Option Timestamp
  periodEnd : Option Timestamp
  observedAt : Timestamp
  kpis : List Kpi
  intendedContractId : Option String
  deriving DecidableEq

/-- The values of a KPI in the fingerprint of a recognition. -/
structure KpiValues where
  kpiId : String
  metric : String
  currentValue : Option ℚ
  targetValue : Option ℚ
  previousValue : Option ℚ
  unit : String
  deriving DecidableEq

/-- A text: plain, or the digest of one of the payloads the service hashes. -/
inductive Text
  | plain (text : String)
  | condition (goalId : String) (kpiIds : List String) (subjects : List Json)
  | need (tenantId objectiveKey : String) (conditionKey : Text) (subjects : List Json)
  | measurement (payload : MeasurementPayload)
  | source (measurementId : ℕ)
  | recognition (measurementId : ℕ) (goalId : String) (kpis : List KpiValues)
  | summary (text : String)
  deriving DecidableEq

def Text.blank : Text → Bool
  | .plain text => Runtime.strip text = ""
  | _ => false

inductive NeedStatus
  | recognized | monitoring | challenged | responseProposed | impactMonitored
  | resolved | disproven | superseded
  deriving DecidableEq

def NeedStatus.closed (status : NeedStatus) : Bool :=
  status = .resolved ∨ status = .disproven ∨ status = .superseded

structure BusinessObservation where
  sourceFingerprint : Text
  measurementFingerprint : Option Text
  subjectReferences : List Json
  observedAt : ℤ
  deriving DecidableEq

structure ObjectiveReference where
  objectiveKey : String
  conditionKey : Option Text
  deriving DecidableEq

/-- An impact assessment: the condition it was made for and its other entries. -/
structure ImpactAssessment where
  conditionFingerprint : Option Text
  fields : Fields
  deriving DecidableEq

structure RelatedNeed where
  needId : Text
  revision : ℕ
  deriving DecidableEq

structure CandidateResponse where
  responseKey : String
  grantsExecutionAuthority : Bool
  deriving DecidableEq

structure BusinessNeedRevision where
  needId : Text
  revision : ℕ
  status : NeedStatus
  subjectReferences : List Json
  objectiveReference : Option ObjectiveReference
  conditionSummary : String
  observationIds : List ℕ
  relatedNeeds : List RelatedNeed
  candidateResponses : List CandidateResponse
  proposals : List String
  missions : List String
  impactAssessment : Option ImpactAssessment
  resolutionObservationIds : List ℕ
  deriving DecidableEq

/-- The rows of one tenant. -/
structure Store where
  observations : List BusinessObservation
  measurements : List MeasurementPayload
  needs : List BusinessNeedRevision
  proposals : List String
  missions : List String
  deriving DecidableEq

def Store.empty : Store := ⟨[], [], [], [], []⟩

/-- The tenant, double arithmetic, Python's `str` and `json.dumps` of a subject, what
`BusinessObjectRef.model_validate` reads from one and the database's order of need ids. -/
structure Platform where
  tenantId : String
  doubles : Doubles
  str : Json → String
  dumps : Json → String
  readRef : Json → Option BusinessObjectRef
  collate : Text → Text → Bool

inductive Failure
  | validation (message : String)
  | conflict (expectedRevision currentRevision : ℕ)
  | data
  deriving DecidableEq

/-- The message of the first check that fails. -/
def firstRefusal (checks : List (Bool × String)) : Option String :=
  (checks.find? fun check => check.1).map Prod.snd

section Repository

/-- `get_latest_need_for_tenant`. -/
def Store.latest (s : Store) (needId : Text) : Option BusinessNeedRevision :=
  (s.needs.filter fun row => row.needId = needId).argmax fun row => row.revision

def Store.revision (s : Store) (needId : Text) (revision : ℕ) : Option BusinessNeedRevision :=
  s.needs.find? fun row => row.needId = needId ∧ row.revision = revision

/-- The need ids in the order of `list_latest_needs_for_tenant`. -/
def Store.needIds (P : Platform) (s : Store) : List Text :=
  ((s.needs.map fun row => row.needId).eraseDups).insertionSort fun a b => P.collate a b

def sortedSubjects (key : Json → String) (subjects : List Json) : List Json :=
  subjects.insertionSort fun a b => key a ≤ key b

/-- An active need with this objective, condition and set of subjects. -/
def ofIdentity (P : Platform) (objectiveKey : String) (conditionKey : Text)
    (subjects : List Json) (row : BusinessNeedRevision) : Bool :=
  row.objectiveReference = some ⟨objectiveKey, some conditionKey⟩ ∧
    sortedSubjects P.str row.subjectReferences = sortedSubjects P.str subjects ∧
    row.status.closed = false

def Store.findActiveNeedForIdentity (P : Platform) (s : Store) (objectiveKey : String)
    (conditionKey : Text) (subjects : List Json) : Option BusinessNeedRevision :=
  (s.needIds P).findSome? fun needId =>
    (s.latest needId).filter (ofIdentity P objectiveKey conditionKey subjects)

end Repository

section Columns

/-- PostgreSQL stores no NUL character. -/
def storedText (text : String) : Bool := text.toList.all (· ≠ Char.ofNat 0)

/-- What a `VARCHAR(width)` takes. -/
def varchar (width : ℕ) (text : String) : Bool := text.length ≤ width && storedText text

mutual

/-- What a JSONB column takes. -/
def storedJson : Json → Bool
  | .num (.finite _) => true
  | .num _ => false
  | .str text => storedText text
  | .arr items => storedItems items
  | .obj fields => storedFields fields
  | _ => true

def storedItems : List Json → Bool
  | [] => true
  | item :: items => storedJson item && storedItems items

def storedFields : List (String × Json) → Bool
  | [] => true
  | (key, value) :: fields => storedText key && storedJson value && storedFields fields

end

end Columns

section Append

/-- What a caller appends. -/
structure NeedValues where
  status : NeedStatus
  subjectReferences : List Json
  objectiveReference : Option ObjectiveReference
  conditionSummary : String
  observationIds : List ℕ
  relatedNeeds : List RelatedNeed
  candidateResponses : List CandidateResponse
  proposals : List String
  missions : List String
  impactAssessment : Option ImpactAssessment
  resolutionObservationIds : List ℕ
  producer : String

def impactKeys : List String :=
  ["status", "evaluation_basis", "history", "causation", "baseline_measurement_id",
    "observed_measurement_id", "outcome_evidence_id", "outcome_evaluation_id",
    "accepted_measurement_pairing_id"]

/-- The condition an impact assessment of this summary is for. -/
def conditionFingerprint (conditionSummary : String) : Text :=
  .summary (Runtime.strip conditionSummary)

def statusText : Option Json → String
  | some (.str text) => Runtime.strip text
  | some v => if v.truthy then "value" else ""
  | none => ""

/-- `_validate_resolution_consistency`. -/
def resolutionConsistency (s : Store) (previous : Option BusinessNeedRevision) (v : NeedValues)
    (impact : ImpactAssessment) : List (Bool × String) :=
  let observed := v.resolutionObservationIds.filterMap fun id => s.observations[id]?
  let prior := (previous.elim [] (·.observationIds)).filterMap fun id => s.observations[id]?
  [(impact.fields.any (fun f => f.1 ≠ "status" ∧ f.1 ≠ "evaluation_basis") ||
      statusText (Fields.get impact.fields "status") = "", "impact assessment is invalid"),
    (v.subjectReferences ≠ [] && observed.any fun o =>
        !v.subjectReferences.any fun subject => subject ∈ o.subjectReferences,
      "resolution observations must concern the need subject"),
    (!prior.isEmpty && observed.all fun o => prior.any fun p => o.observedAt ≤ p.observedAt,
      "resolution observations must follow the previously observed condition")]

/-- The checks of a `resolved` revision. -/
def resolutionChecks (s : Store) (needId : Text) (expected : ℕ) (v : NeedValues) :
    List (Bool × String) :=
  let previous := if 0 < expected then s.revision needId expected else none
  [(v.resolutionObservationIds.isEmpty,
      "resolved need revisions require independently recorded resolution observations"),
    (!v.resolutionObservationIds.all (· ∈ v.observationIds),
      "resolution observations must support the resolved revision"),
    (v.resolutionObservationIds.all (· ∈ previous.elim [] (·.observationIds)),
      "resolved need revisions require independently recorded impact observations"),
    (v.impactAssessment.isNone, "resolved need revisions require an impact_assessment")] ++
    v.impactAssessment.elim [] (resolutionConsistency s previous v)

/-- The checks of `append_need_revision`, in their order. -/
def needChecks (s : Store) (needId : Text) (expected : ℕ) (v : NeedValues) :
    List (Bool × String) :=
  let unknown := fun ids : List ℕ => ids.any fun id => s.observations.length ≤ id
  [(decide (Runtime.strip v.conditionSummary = ""), "condition_summary must be non-empty"),
    (decide (Runtime.strip v.producer = ""), "producer must be non-empty"),
    (v.objectiveReference.any fun r =>
        Runtime.strip r.objectiveKey = "" || r.conditionKey.any Text.blank,
      "objective reference is invalid"),
    (v.observationIds.isEmpty, "need revisions require at least one supporting observation"),
    (unknown v.observationIds, "observation reference was not found for tenant"),
    (unknown v.resolutionObservationIds, "observation reference was not found for tenant")] ++
    (if v.status = .resolved then resolutionChecks s needId expected v else []) ++
    [(v.relatedNeeds.any fun r => r.needId = .plain "" || (s.revision r.needId r.revision).isNone,
        "related need reference was not found for tenant")] ++
    (v.proposals.flatMap fun id =>
      [(decide (Runtime.strip id = ""), "proposal reference is invalid"),
        (decide (Runtime.strip id ∉ s.proposals), "proposal reference was not found for tenant")]) ++
    [(v.missions.any (· ∉ s.missions), "mission reference was not found for tenant")] ++
    (v.candidateResponses.flatMap fun r =>
      [(decide (Runtime.strip r.responseKey = ""), "candidate response requires response_key"),
        (r.grantsExecutionAuthority, "candidate responses cannot grant execution authority")]) ++
    [(v.impactAssessment.any fun a =>
          a.conditionFingerprint.any (· ≠ conditionFingerprint v.conditionSummary),
        "impact assessment condition does not match the need")]

/-- The row of an append. -/
def NeedValues.row (v : NeedValues) (needId : Text) (revision : ℕ) : BusinessNeedRevision where
  needId := needId
  revision := revision
  status := v.status
  subjectReferences := v.subjectReferences
  objectiveReference := v.objectiveReference
  conditionSummary := Runtime.strip v.conditionSummary
  observationIds := v.observationIds.eraseDups
  relatedNeeds := v.relatedNeeds
  candidateResponses := v.candidateResponses
  proposals := v.proposals
  missions := v.missions
  impactAssessment := v.impactAssessment.map fun a =>
    ⟨some (conditionFingerprint v.conditionSummary), a.fields.filter fun f => f.1 ∈ impactKeys⟩
  resolutionObservationIds := v.resolutionObservationIds.eraseDups

def Store.currentRevision (s : Store) (needId : Text) : ℕ :=
  ((s.latest needId).map fun row => row.revision).getD 0

/-- `append_need_revision` of the service and of the repository. -/
def appendNeedRevision (s : Store) (needId : Text) (expected : ℕ) (v : NeedValues) :
    Except Failure (Store × BusinessNeedRevision) :=
  match firstRefusal (needChecks s needId expected v) with
  | some message => .error (.validation message)
  | none =>
    if s.currentRevision needId ≠ expected then
      .error (.conflict expected (s.currentRevision needId))
    else
      let row := v.row needId (s.currentRevision needId + 1)
      .ok ({ s with needs := s.needs ++ [row] }, row)

end Append

section Ingest

/-- An ingestion request. `intended` is what `_resolve_intended_measurement_reference` answers:
the contract of the successor mission, or its refusal. -/
structure MeasurementInput where
  goal : Goal
  kpis : List Kpi
  subjectReferences : List Json
  sourceVerified : Bool
  sourceReference : Json
  sourceVersion : String
  periodStart : Option Timestamp
  periodEnd : Option Timestamp
  observedAt : Timestamp
  intended : Except String (Option String)
  limitations : List Json := []
  producer : String

variable (P : Platform)

def Goal.objective (goal : Goal) : String := goal.objectiveKey.getD goal.goalId

def Goal.subjects (goal : Goal) : List Json := goal.subjectRefs.map BusinessObjectRef.dump

def sortedKpiIds (kpis : List Kpi) : List String :=
  (kpis.map fun k => k.kpiId).insertionSort (· ≤ ·)

def conditionKey (goal : Goal) (kpis : List Kpi) : Text :=
  .condition goal.goalId (sortedKpiIds kpis) goal.subjects

/-- `_stable_need_id`. -/
def stableNeedId (goal : Goal) (kpis : List Kpi) : Text :=
  .need P.tenantId goal.objective (conditionKey goal kpis) (sortedSubjects P.dumps goal.subjects)

/-- The checks on the subjects: both lists read, and name the same objects. -/
def sameSubjects (goal : Goal) (subjects : List Json) : Bool :=
  match subjects.mapM P.readRef with
  | none => false
  | some refs => goal.subjectRefs.all (· ∈ refs) && refs.all (· ∈ goal.subjectRefs)

def measurementChecks (m : MeasurementInput) : List (Bool × String) :=
  [(decide (Runtime.strip m.sourceVersion = ""), "source_version must be non-empty"),
    (m.observedAt.offset.isNone, "observed_at must be timezone-aware"),
    (m.periodStart.any (·.offset.isNone), "measurement_period_start must be timezone-aware"),
    (m.periodEnd.any (·.offset.isNone), "measurement_period_end must be timezone-aware"),
    (m.periodStart.any fun a => m.periodEnd.any fun b => b.instant < a.instant,
      "measurement period is invalid"),
    (m.periodEnd.any fun b => m.observedAt.instant < b.instant,
      "observed_at cannot precede the measurement period end"),
    (m.kpis.isEmpty || m.kpis.any (·.goalId ≠ m.goal.goalId),
      "all KPI values must belong to the supplied goal"),
    (!sameSubjects P m.goal m.subjectReferences, "measurement subjects must match goal subjects")] ++
    (match m.intended with
      | .error message => [(true, message)]
      | .ok _ => []) ++
    [(m.sourceVerified, "source_verified measurements require an authorized internal adapter")]

def sortedKpis (kpis : List Kpi) : List Kpi :=
  kpis.insertionSort fun a b => a.kpiId ≤ b.kpiId

def MeasurementInput.payload (m : MeasurementInput) : MeasurementPayload where
  goalId := m.goal.goalId
  objectiveKey := m.goal.objectiveKey
  subjects := m.subjectReferences
  source := m.sourceReference
  sourceVersion := m.sourceVersion
  periodStart := m.periodStart
  periodEnd := m.periodEnd
  observedAt := m.observedAt
  kpis := sortedKpis m.kpis
  intendedContractId := m.intended.toOption.join

def metricOf (kpis : List Kpi) : String :=
  ", ".intercalate ((kpis.map (·.metric)).insertionSort (· ≤ ·))

/-- The columns of `business_measurements` take the row. -/
def MeasurementInput.rowStored (m : MeasurementInput) : Bool :=
  varchar 160 m.goal.objective && varchar 160 (metricOf m.kpis) && varchar 160 m.sourceVersion &&
    m.subjectReferences.all storedJson && storedJson m.sourceReference &&
    m.limitations.all storedJson &&
    m.kpis.all fun k => [k.kpiId, k.goalId, k.name, k.metric, k.unit].all storedText

/-- The columns of the observation and of the need revision take what a recognition adds. -/
def MeasurementInput.notesStored (m : MeasurementInput) : Bool :=
  varchar 160 (Runtime.strip m.producer) && storedText m.goal.name &&
    storedText m.goal.objective && m.goal.subjects.all storedJson

def Kpi.values (k : Kpi) : KpiValues :=
  ⟨k.kpiId, k.metric, k.currentValue, k.targetValue, k.previousValue, k.unit⟩

/-- The observation a recognition of this measurement records. -/
def MeasurementInput.observation (m : MeasurementInput) (measurementId : ℕ) :
    BusinessObservation where
  sourceFingerprint := .source measurementId
  measurementFingerprint :=
    some (.recognition measurementId m.goal.goalId ((sortedKpis m.kpis).map Kpi.values))
  subjectReferences := m.goal.subjects
  observedAt := m.observedAt.instant

/-- A row found by a key, or recorded. -/
def findOrAdd {α : Type} (p : α → Bool) (rows : List α) (row : α) : List α × ℕ :=
  match rows.findIdx? p with
  | some i => (rows, i)
  | none => (rows ++ [row], rows.length)

def sameFingerprints (a b : BusinessObservation) : Bool :=
  b.sourceFingerprint = a.sourceFingerprint ∧ b.measurementFingerprint = a.measurementFingerprint

def MeasurementInput.status (m : MeasurementInput) : GoalProgressStatus :=
  evaluateGoalProgress P.doubles m.goal.goalId m.kpis

def MeasurementInput.summary (m : MeasurementInput) : String :=
  "Goal '" ++ m.goal.name ++ "' is " ++ (m.status P).value

/-- The revision a recognition appends. -/
def recognitionValues (m : MeasurementInput) (existing : Option BusinessNeedRevision) (k : ℕ) :
    NeedValues where
  status :=
    match existing with
    | none => .recognized
    | some e => if m.status P = .onTrack ∨ m.status P = .achieved then .monitoring else e.status
  subjectReferences := m.goal.subjects
  objectiveReference := some ⟨m.goal.objective, some (conditionKey m.goal m.kpis)⟩
  conditionSummary := m.summary P
  observationIds := (existing.elim [] (·.observationIds) ++ [k]).eraseDups
  relatedNeeds := existing.elim [] (·.relatedNeeds)
  candidateResponses := existing.elim [] (·.candidateResponses)
  proposals := existing.elim [] (·.proposals)
  missions := existing.elim [] (·.missions)
  impactAssessment := existing.bind (·.impactAssessment)
  resolutionObservationIds := existing.elim [] (·.resolutionObservationIds)
  producer := m.producer

def Store.existing (s : Store) (m : MeasurementInput) : Option BusinessNeedRevision :=
  s.findActiveNeedForIdentity P m.goal.objective (conditionKey m.goal m.kpis) m.goal.subjects

/-- The append of a recognition, with the columns of its row. -/
def appendRecognition (s : Store) (m : MeasurementInput) (needId : Text) (expected : ℕ)
    (v : NeedValues) : Except Failure (Store × BusinessNeedRevision) :=
  match appendNeedRevision s needId expected v with
  | .error failure => .error failure
  | .ok result => if m.notesStored then .ok result else .error .data

/-- `recognize_goal_gap`; the lookup it repeats after the observation reads the same needs. -/
def recognizeGoalGap (s : Store) (m : MeasurementInput) (measurementId : ℕ) :
    Except Failure (Store × Option BusinessNeedRevision) :=
  if (m.status P).isGap = false ∧ s.existing P m = none then .ok (s, none)
  else if s.observations.findIdx? (sameFingerprints (m.observation measurementId)) = none ∧
      Runtime.strip m.producer = "" then .error (.validation "producer must be non-empty")
  else if s.observations.findIdx? (sameFingerprints (m.observation measurementId)) = none ∧
      m.notesStored = false then .error .data
  else
    let (observations, k) :=
      findOrAdd (sameFingerprints (m.observation measurementId)) s.observations
        (m.observation measurementId)
    let s := { s with observations := observations }
    match s.existing P m with
    | some existing =>
      if k ∈ existing.observationIds then .ok (s, some existing)
      else
        match appendRecognition s m existing.needId existing.revision
            (recognitionValues P m (some existing) k) with
        | .ok (s, row) => .ok (s, some row)
        | .error failure => .error failure
    | none =>
      match appendRecognition s m (stableNeedId P m.goal m.kpis) 0
          (recognitionValues P m none k) with
      | .ok (s, row) => .ok (s, some row)
      | .error (.conflict expected current) =>
        match s.latest (stableNeedId P m.goal m.kpis) with
        | some concurrent =>
          if k ∈ concurrent.observationIds then .ok (s, some concurrent)
          else .error (.conflict expected current)
        | none => .error (.conflict expected current)
      | .error failure => .error failure

/-- `ingest_measurement`. -/
def ingestMeasurement (s : Store) (m : MeasurementInput) :
    Except Failure (Store × Option BusinessNeedRevision) :=
  match firstRefusal (measurementChecks P m) with
  | some message => .error (.validation message)
  | none =>
    if s.measurements.findIdx? (· = m.payload) = none ∧ m.rowStored = false then .error .data
    else
      let (measurements, id) := findOrAdd (· = m.payload) s.measurements m.payload
      recognizeGoalGap P { s with measurements := measurements } m id

/-- The committed store: a failure rolls the caller's transaction back. -/
def Store.ingest (s : Store) (m : MeasurementInput) : Store :=
  match ingestMeasurement P s m with
  | .ok (s', _) => s'
  | .error _ => s

end Ingest

end Ajenda.NeedRecognition
