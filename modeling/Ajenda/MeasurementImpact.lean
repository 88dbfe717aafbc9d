import Ajenda.GoalGapRecognition
import Mathlib.Data.Finset.Dedup

/-!
# Recording the business impact of a measurement

A measurement may claim the contract frozen with a successor mission, a pairing accepts a
baseline and an observed measurement for one need revision, and
`record_canonical_measurement_impact` binds outcome evidence to the pairing and appends an
impact revision. Rows are only added, but for a pairing's evaluation; a row's id is its
position. The tables of `NeedRecognition.Store` stand beside those of the contracts, the
pairings and the evidence.
-/
namespace Ajenda.MeasurementImpact
open JsonValue GoalProgress NeedRecognition TransitionSystem

section Rows

structure StrategyLineage where
  needId : Text
  needRevision : ℕ
  assessmentId : String
  assessmentFingerprint : String
  selectedCandidateResponseKey : String
  deriving DecidableEq

structure MeasurementContract where
  baselineMeasurementId : String
  baselineSourceContentFingerprint : Text
  subjectReferences : List Json
  objectiveKey : String
  metric : String
  notBefore : Timestamp
  deriving DecidableEq

/-- A successor reference without its id. -/
structure SuccessorLineage where
  successorMissionId : String
  successorProposalId : Option String
  semanticSnapshotId : String
  semanticSnapshotSha256 : String
  strategyLineage : StrategyLineage
  measurementContract : MeasurementContract
  deriving DecidableEq

/-- An `intended_measurement_reference`. -/
structure SuccessorReference extends SuccessorLineage where
  contractId : String
  deriving DecidableEq

/-- What a mission's frozen snapshot holds: the lineage, and the baseline's own id. -/
structure SuccessorSnapshot where
  lineage : SuccessorLineage
  baselineMeasurementId : String

structure BusinessMeasurement where
  payload : MeasurementPayload
  intendedMeasurementReference : Option SuccessorReference
  deriving DecidableEq

/-- What turns an accepted pairing into an evaluated one. -/
structure PairingEvaluation where
  outcomeEvidenceId : ℕ
  outcomeEvaluationId : String
  impactRevisionId : ℕ
  evaluatedAt : ℤ
  deriving DecidableEq

/-- A pairing; it is `evaluated` when it has an evaluation and `accepted` otherwise. -/
structure BusinessMeasurementPairing where
  needId : Text
  needRevision : ℕ
  needRevisionId : ℕ
  baselineMeasurementId : ℕ
  observedMeasurementId : ℕ
  successorContractId : Option String
  evaluation : Option PairingEvaluation
  deriving DecidableEq

inductive OutcomeStatus
  | achieved | partialProgress | noMaterialChange | regressed | inconclusive | insufficientEvidence
  deriving DecidableEq

def OutcomeStatus.value : OutcomeStatus → String
  | .achieved => "achieved"
  | .partialProgress => "partial_progress"
  | .noMaterialChange => "no_material_change"
  | .regressed => "regressed"
  | .inconclusive => "inconclusive"
  | .insufficientEvidence => "insufficient_evidence"

structure KpiOutcomeDelta where
  kpiId : String
  before : Option ℚ
  after : Option ℚ
  target : Option ℚ
  metric : String
  deriving DecidableEq

/-- An outcome as `evaluate_outcome` writes it, under an id of at most 160 characters. -/
structure OutcomeEvaluation where
  outcomeEvaluationId : String
  acceptedMeasurementPairingId : Option ℕ
  goalId : Option String
  status : OutcomeStatus
  kpiDeltas : List KpiOutcomeDelta
  resolvedObservedAt : Option Timestamp
  evaluatedAt : ℤ
  supportingEvidenceIds : List String
  subjectTypes : List String
  signatureTypes : List String
  deriving DecidableEq

/-- An evidence row: the action its provenance names, the one its materialization reference
names, its payload read as an outcome, and the verdict of
`require_canonical_tool_action_evidence`. The verdict is asked of a completed task, a released
lease and a lineage row, none of which changes again, so it is kept with the row. -/
structure EvidenceRecord where
  actionName : Option String
  materializedAction : Option String
  missionId : String
  outcome : Option OutcomeEvaluation
  runtimeOwned : Bool
  deriving DecidableEq

/-- The rows of one tenant; `intended` is the reference column of the measurements. -/
structure World where
  store : Store
  intended : List (Option SuccessorReference)
  pairings : List BusinessMeasurementPairing
  evidence : List EvidenceRecord
  deriving DecidableEq

def World.empty : World := ⟨Store.empty, [], [], []⟩

/-- The digest of a contract, row ids as text and back, and the dump of an outcome. -/
structure Service extends Platform where
  contractId : SuccessorLineage → String
  uuidText : ℕ → String
  readUuid : String → Option ℕ
  read_text : ∀ id, readUuid (uuidText id) = some id
  dumpOutcome : OutcomeEvaluation → Json

inductive ImpactFailure
  | refused (failure : Failure)
  | integrity
  deriving DecidableEq

def require (checks : List (Bool × String)) : Except String Unit :=
  match firstRefusal checks with
  | some message => .error message
  | none => .ok ()

def found {α : Type} (row : Option α) (message : String) : Except String α :=
  match row with
  | some row => .ok row
  | none => .error message

def World.measurement (w : World) (id : ℕ) : Option BusinessMeasurement :=
  (w.store.measurements[id]?).map fun payload => ⟨payload, (w.intended[id]?).join⟩

/-- The id of a need's revision. -/
def revisionId (s : Store) (needId : Text) (revision : ℕ) : Option ℕ :=
  s.needs.findIdx? fun row => row.needId = needId ∧ row.revision = revision

/-- The `previous_revision_id` of a row: an append numbers it one above the latest. -/
def previousRevisionId (s : Store) (row : BusinessNeedRevision) : Option ℕ :=
  revisionId s row.needId (row.revision - 1)

end Rows

section Measurement

def BusinessMeasurement.objectiveKey (m : BusinessMeasurement) : String :=
  m.payload.objectiveKey.getD m.payload.goalId

def BusinessMeasurement.metric (m : BusinessMeasurement) : String := metricOf m.payload.kpis

def BusinessMeasurement.start (m : BusinessMeasurement) : ℤ :=
  (m.payload.periodStart.getD m.payload.observedAt).instant

def BusinessMeasurement.finish (m : BusinessMeasurement) : ℤ :=
  (m.payload.periodEnd.getD m.payload.observedAt).instant

variable (S : Service)

def canonicalSubjectKeys (subjects : List Json) : Option (Finset BusinessObjectRef) :=
  (subjects.mapM S.readRef).map List.toFinset

/-- Subjects that cannot be read differ from all. -/
def subjectsDiffer (a b : List Json) : Bool :=
  (canonicalSubjectKeys S a).isNone || canonicalSubjectKeys S a ≠ canonicalSubjectKeys S b

/-- The checks of `_resolve_intended_measurement_reference` against the measurement. -/
def snapshotChecks (m : MeasurementInput) (snapshot : SuccessorSnapshot) :
    List (Bool × String) :=
  let contract := snapshot.lineage.measurementContract
  let strategy := snapshot.lineage.strategyLineage
  let early := fun time : Timestamp => decide (time.instant ≤ contract.notBefore.instant)
  [(contract.objectiveKey = "" || contract.metric = "" || contract.notBefore.offset.isNone,
      "successor measurement contract is invalid"),
    (subjectsDiffer S contract.subjectReferences m.subjectReferences,
      "measurement subjects do not match successor measurement contract"),
    (decide (contract.objectiveKey ≠ m.goal.objective),
      "measurement objective does not match successor measurement contract"),
    (decide (contract.metric ≠ metricOf m.kpis),
      "measurement metric does not match successor measurement contract"),
    (early m.observedAt || m.periodStart.any early || m.periodEnd.any early,
      "measurement period must follow the successor measurement baseline"),
    (strategy.needId = .plain "" || contract.baselineSourceContentFingerprint = .plain "" ||
        [strategy.assessmentId, strategy.assessmentFingerprint,
          strategy.selectedCandidateResponseKey, contract.baselineMeasurementId,
          snapshot.lineage.semanticSnapshotId, snapshot.lineage.semanticSnapshotSha256].any (· = ""),
      "successor measurement contract is invalid"),
    (decide (strategy.needRevision < 1),
      "successor measurement contract has invalid need revision"),
    (decide (snapshot.baselineMeasurementId ≠ contract.baselineMeasurementId),
      "successor measurement contract baseline is contradictory")]

/-- `_resolve_intended_measurement_reference`, on what the mission's metadata answers. -/
def resolveIntendedMeasurementReference (m : MeasurementInput)
    (successor : Except String (Option SuccessorSnapshot)) :
    Except String (Option SuccessorReference) :=
  match successor with
  | .error message => .error message
  | .ok none => .ok none
  | .ok (some snapshot) =>
    match firstRefusal (snapshotChecks S m snapshot) with
    | some message => .error message
    | none => .ok (some ⟨snapshot.lineage, S.contractId snapshot.lineage⟩)

/-- `ingest_measurement`, with the reference column of the row it adds. -/
def World.ingest (w : World) (m : MeasurementInput)
    (successor : Except String (Option SuccessorSnapshot)) :
    Except Failure (World × Option BusinessNeedRevision) :=
  let reference := resolveIntendedMeasurementReference S m successor
  let m := { m with intended := reference.map (·.map SuccessorReference.contractId) }
  match ingestMeasurement S.toPlatform w.store m with
  | .error failure => .error failure
  | .ok (store, need) =>
    let added := store.measurements.length ≠ w.store.measurements.length
    .ok ({ w with
      store := store
      intended := if added then w.intended ++ [reference.toOption.join] else w.intended }, need)

end Measurement

section Admission
variable (S : Service)

/-- `_validate_measurement_comparability`. -/
def comparabilityChecks (current : BusinessNeedRevision) (baselineId laterId : ℕ)
    (baseline later : BusinessMeasurement) : List (Bool × String) :=
  let metrics := fun m : BusinessMeasurement =>
    (m.payload.kpis.map fun k => (k.kpiId, k.metric, k.unit)).toFinset
  [(decide (baselineId = laterId), "impact requires a later distinct measurement"),
    (subjectsDiffer S baseline.payload.subjects later.payload.subjects,
      "impact measurements concern different subjects"),
    (subjectsDiffer S current.subjectReferences later.payload.subjects,
      "impact measurements do not match the need subject"),
    (decide (baseline.objectiveKey ≠ later.objectiveKey),
      "impact measurements concern different objectives"),
    (decide (metrics baseline ≠ metrics later), "impact measurements are not comparable"),
    (later.start ≤ baseline.finish ||
        later.payload.observedAt.instant ≤ baseline.payload.observedAt.instant,
      "impact measurement chronology is invalid")]

/-- `_validate_successor_measurement_impact_lineage`. The lineage may name an earlier revision
than the current one. -/
def lineageChecks (current : BusinessNeedRevision) (baselineId : ℕ)
    (baseline later : BusinessMeasurement) (reference : SuccessorReference) :
    List (Bool × String) :=
  let strategy := reference.strategyLineage
  let contract := reference.measurementContract
  [(strategy.needId = .plain "" || contract.baselineSourceContentFingerprint = .plain "" ||
        [reference.successorMissionId, reference.semanticSnapshotId,
          reference.semanticSnapshotSha256, strategy.assessmentId,
          strategy.assessmentFingerprint, strategy.selectedCandidateResponseKey,
          contract.baselineMeasurementId, contract.objectiveKey, contract.metric].any (· = "") ||
        decide (strategy.needRevision < 1), "successor measurement lineage is invalid"),
    ((canonicalSubjectKeys S contract.subjectReferences).isNone,
      "successor measurement lineage is malformed"),
    (reference.contractId ≠ S.contractId reference.toSuccessorLineage ||
        contract.notBefore.offset.isNone, "successor measurement contract identity is invalid"),
    (decide (current.status = .superseded),
      "successor measurement lineage references a superseded need"),
    (strategy.needId ≠ current.needId || decide (current.revision < strategy.needRevision) ||
        contract.baselineMeasurementId ≠ S.uuidText baselineId ||
        contract.baselineSourceContentFingerprint ≠ .measurement baseline.payload ||
        contract.objectiveKey ≠ later.objectiveKey || contract.metric ≠ later.metric ||
        subjectsDiffer S contract.subjectReferences later.payload.subjects ||
        later.start ≤ contract.notBefore.instant ||
        later.payload.periodEnd.any fun e => e.instant ≤ contract.notBefore.instant,
      "impact measurements contradict the frozen successor measurement contract")]

/-- The checks that acceptance and recording share. -/
def measurementPairChecks (current : BusinessNeedRevision) (baselineId laterId : ℕ)
    (baseline later : BusinessMeasurement) : List (Bool × String) :=
  comparabilityChecks S current baselineId laterId baseline later ++
    later.intendedMeasurementReference.elim [] (lineageChecks S current baselineId baseline later)

/-- An acceptance, without its producer: nothing reads it, and its column takes it. -/
structure PairingRequest where
  needId : Text
  expectedRevision : ℕ
  baselineMeasurementId : ℕ
  observedMeasurementId : ℕ

/-- The fields the pairing's fingerprint hashes; a measurement's own fingerprint goes with
its id. -/
def sameFingerprint (r : PairingRequest) (contractId : Option String)
    (p : BusinessMeasurementPairing) : Bool :=
  p.needId = r.needId ∧ p.baselineMeasurementId = r.baselineMeasurementId ∧
    p.observedMeasurementId = r.observedMeasurementId ∧ p.successorContractId = contractId

/-- `accept_measurement_pairing`: the world and the pairing's id. -/
def World.acceptPairing (w : World) (r : PairingRequest) : Except String (World × ℕ) := do
  let baseline ← found (w.measurement r.baselineMeasurementId)
    "impact measurement was not found for tenant"
  let later ← found (w.measurement r.observedMeasurementId)
    "impact measurement was not found for tenant"
  let contractId := later.intendedMeasurementReference.map SuccessorReference.contractId
  match w.pairings.findIdx? (sameFingerprint r contractId) with
  | some existing => pure (w, existing)
  | none =>
    let currentId ← found (revisionId w.store r.needId r.expectedRevision)
      "need revision was not found for tenant"
    let current ← found (w.store.needs[currentId]?) "need revision was not found for tenant"
    require ([(decide (current.status = .superseded),
      "measurement pairing references a superseded need")] ++
      measurementPairChecks S current r.baselineMeasurementId r.observedMeasurementId baseline later)
    pure ({ w with
      pairings := w.pairings ++ [⟨r.needId, current.revision, currentId, r.baselineMeasurementId,
        r.observedMeasurementId, contractId, none⟩] }, w.pairings.length)

end Admission

section Recording
variable (S : Service)

structure ImpactRequest where
  needId : Text
  expectedRevision : ℕ
  baselineMeasurementId : ℕ
  observedMeasurementId : ℕ
  outcomeEvidenceId : ℕ
  acceptedMeasurementPairingId : Option ℕ
  producer : String
  missionReference : Option String

/-- What a request for an impact refers to, once admitted. -/
structure ImpactSources where
  pairing : Option BusinessMeasurementPairing
  current : BusinessNeedRevision
  baseline : BusinessMeasurement
  later : BusinessMeasurement
  evidence : EvidenceRecord
  outcome : OutcomeEvaluation

def outcomeAction : String := "analysis.evaluate_outcome"

def World.loadPairing (w : World) (r : ImpactRequest) :
    Except String (Option BusinessMeasurementPairing) :=
  match r.acceptedMeasurementPairingId with
  | none => pure none
  | some id => do
    let p ← found (w.pairings[id]?) "accepted measurement pairing was not found for tenant"
    require
      [(p.needId ≠ r.needId || p.baselineMeasurementId ≠ r.baselineMeasurementId ||
          p.observedMeasurementId ≠ r.observedMeasurementId,
        "impact request contradicts the accepted measurement pairing"),
      (p.evaluation.any (·.outcomeEvidenceId ≠ r.outcomeEvidenceId),
        "accepted measurement pairing is already evaluated")]
    pure (some p)

/-- The admission of `record_canonical_measurement_impact`, in its order. The latest row is
compared with the current one as a whole; a need has one row for each revision. -/
def World.impactSources (w : World) (r : ImpactRequest) : Except String ImpactSources := do
  let pairing ← w.loadPairing r
  let currentId ← found (revisionId w.store r.needId r.expectedRevision)
    "need revision was not found for tenant"
  let current ← found (w.store.needs[currentId]?) "need revision was not found for tenant"
  require (pairing.elim [] fun p =>
    [(p.needRevisionId ≠ currentId || p.needRevision ≠ current.revision,
        "accepted pairing does not belong to the requested need revision"),
      (p.evaluation.isNone && (decide (w.store.latest r.needId ≠ some current) ||
          decide (current.status = .superseded)),
        "accepted pairing references a superseded need")])
  let baseline ← found (w.measurement r.baselineMeasurementId)
    "impact measurement was not found for tenant"
  let later ← found (w.measurement r.observedMeasurementId)
    "impact measurement was not found for tenant"
  require ([(later.intendedMeasurementReference.isSome && pairing.isNone,
    "successor measurement impact requires an accepted pairing")] ++
    measurementPairChecks S current r.baselineMeasurementId r.observedMeasurementId baseline later)
  let evidence ← found ((w.evidence[r.outcomeEvidenceId]?).filter fun e =>
    e.actionName = some outcomeAction) "canonical outcome evidence was not found for tenant"
  require [(r.missionReference.any (· ≠ evidence.missionId),
    "mission reference does not own canonical outcome evidence")]
  let outcome ← found evidence.outcome "canonical outcome evidence is invalid"
  require [(pairing.isSome &&
      outcome.acceptedMeasurementPairingId ≠ r.acceptedMeasurementPairingId,
    "canonical outcome evaluation does not reference the accepted pairing")]
  pure ⟨pairing, current, baseline, later, evidence, outcome⟩

/-- The last entry of a KPI, as in a dictionary built from the list. -/
def lastKpi (kpis : List Kpi) (kpiId : String) : Option Kpi :=
  kpis.reverse.find? (·.kpiId = kpiId)

def lastDelta (deltas : List KpiOutcomeDelta) (kpiId : String) : Option KpiOutcomeDelta :=
  deltas.reverse.find? (·.kpiId = kpiId)

def expectedDelta (baseline later : BusinessMeasurement) (kpiId : String) :
    Option KpiOutcomeDelta := do
  let before ← lastKpi baseline.payload.kpis kpiId
  let after ← lastKpi later.payload.kpis kpiId
  pure ⟨kpiId, before.currentValue, after.currentValue, after.targetValue, before.metric⟩

/-- `_validate_outcome_matches_measurements`. -/
def outcomeChecks (outcome : OutcomeEvaluation) (baseline later : BusinessMeasurement) :
    List (Bool × String) :=
  let kpiIds := outcome.kpiDeltas.map (·.kpiId) ++ baseline.payload.kpis.map (·.kpiId)
  [(kpiIds.any fun id => lastDelta outcome.kpiDeltas id ≠ expectedDelta baseline later id,
      "canonical outcome does not match durable measurements"),
    (!outcome.resolvedObservedAt.any fun t => t.offset.isSome &&
        t.instant = later.payload.observedAt.instant,
      "canonical outcome chronology does not match measurement")]

/-- Python writes a double from 10^16 on as `1e+16`, and JSONB gives it back as an integer, so that
the text that is hashed changes. -/
def KpiValues.rereads (v : KpiValues) : Bool :=
  [v.currentValue, v.targetValue, v.previousValue].all fun value =>
    !value.any fun x => (10 : ℚ) ^ 16 ≤ |x|

/-- The observation a recognition recorded for the later measurement. -/
def observationFingerprints (goalId : String) (later : BusinessMeasurement) (laterId : ℕ)
    (o : BusinessObservation) : Bool :=
  (later.payload.kpis.map Kpi.values).all KpiValues.rereads &&
    decide (o.sourceFingerprint = .source laterId ∧ o.measurementFingerprint =
      some (.recognition laterId goalId (later.payload.kpis.map Kpi.values)))

/-- The id of the impact observation, after the checks on it. -/
def World.impactObservation (w : World) (r : ImpactRequest) (src : ImpactSources) :
    Except String ℕ := do
  require (outcomeChecks src.outcome src.baseline src.later)
  let k ← found (src.outcome.goalId.bind fun goalId => w.store.observations.findIdx?
    (observationFingerprints goalId src.later r.observedMeasurementId))
    "impact observation was not found for measurement"
  let observation ← found (w.store.observations[k]?)
    "impact observation was not found for measurement"
  let prior := src.current.observationIds.filter (· ≠ k)
  require
    [(subjectsDiffer S src.current.subjectReferences observation.subjectReferences,
        "impact observation subject does not match outcome"),
      (prior.any (w.store.observations.length ≤ ·),
        "observation reference was not found for tenant"),
      (prior.any fun id => (w.store.observations[id]?).any fun o =>
          observation.observedAt ≤ o.observedAt,
        "impact observation must follow the existing need evidence")]
  pure k

/-- The entries of the new assessment. -/
def impactFields (r : ImpactRequest) (outcome : OutcomeEvaluation) : Fields :=
  [("status", .str (if outcome.status = .inconclusive then "uncertain" else outcome.status.value)),
    ("evaluation_basis", S.dumpOutcome outcome),
    ("causation", .str "unresolved"),
    ("baseline_measurement_id", .str (S.uuidText r.baselineMeasurementId)),
    ("observed_measurement_id", .str (S.uuidText r.observedMeasurementId)),
    ("outcome_evidence_id", .str (S.uuidText r.outcomeEvidenceId)),
    ("outcome_evaluation_id", .str outcome.outcomeEvaluationId)] ++
  r.acceptedMeasurementPairingId.elim [] fun id =>
    [("accepted_measurement_pairing_id", .str (S.uuidText id))]

/-- `_append_impact_history`. -/
def appendImpactHistory (existing : Option ImpactAssessment) (current : Fields) : Fields :=
  let history := existing.elim [] fun a =>
    let previous := a.fields.filter fun f => f.1 ≠ "history"
    (match Fields.get a.fields "history" with
      | some (.arr items) => items
      | _ => []) ++ if previous = [] then [] else [.obj previous]
  current ++ [("history", .arr history)]

/-- What is appended. A missing objective is passed on as an empty one, which is refused. -/
def impactValues (r : ImpactRequest) (src : ImpactSources) (k : ℕ) : NeedValues where
  status := .impactMonitored
  subjectReferences := src.current.subjectReferences
  objectiveReference := some (src.current.objectiveReference.getD ⟨"", none⟩)
  conditionSummary := src.current.conditionSummary
  observationIds := src.current.observationIds ++ [k]
  relatedNeeds := src.current.relatedNeeds
  candidateResponses := src.current.candidateResponses
  proposals := src.current.proposals
  missions := (src.current.missions ++ [src.evidence.missionId]).eraseDups
  impactAssessment := some ⟨none,
    appendImpactHistory src.current.impactAssessment (impactFields S r src.outcome)⟩
  resolutionObservationIds := src.current.resolutionObservationIds
  producer := r.producer

/-- The pairings after the evaluation of one of them. -/
def World.evaluated (w : World) (r : ImpactRequest) (outcome : OutcomeEvaluation) :
    List BusinessMeasurementPairing :=
  r.acceptedMeasurementPairingId.elim w.pairings fun id =>
    w.pairings.modify id fun p => { p with
      evaluation := some ⟨r.outcomeEvidenceId, outcome.outcomeEvaluationId, w.store.needs.length,
        outcome.evaluatedAt⟩ }

/-- The unique keys of the pairings on the outcome's evidence and evaluation. -/
def World.outcomeTaken (w : World) (r : ImpactRequest) (outcome : OutcomeEvaluation) : Bool :=
  r.acceptedMeasurementPairingId.isSome && w.pairings.any fun p => p.evaluation.any fun e =>
    e.outcomeEvidenceId = r.outcomeEvidenceId ∨ e.outcomeEvaluationId = outcome.outcomeEvaluationId

/-- The column of the revision takes the producer. An evaluation's id, of 160 characters at most,
fits its own. -/
def ImpactRequest.stored (r : ImpactRequest) : Bool := varchar 160 (Runtime.strip r.producer)

/-- `record_canonical_measurement_impact`: the world and the impact revision's id. -/
def World.recordImpact (w : World) (r : ImpactRequest) : Except ImpactFailure (World × ℕ) :=
  match w.impactSources S r with
  | .error message => .error (.refused (.validation message))
  | .ok src =>
    match src.pairing.bind (·.evaluation) with
    | some e =>
      if e.outcomeEvaluationId ≠ src.outcome.outcomeEvaluationId ∨
          e.outcomeEvidenceId ≠ r.outcomeEvidenceId then
        .error (.refused (.validation "accepted measurement pairing evaluation identity is invalid"))
      else if w.store.needs.length ≤ e.impactRevisionId then
        .error (.refused
          (.validation "accepted measurement pairing impact revision is unavailable"))
      else .ok (w, e.impactRevisionId)
    | none =>
      match w.impactObservation S r src with
      | .error message => .error (.refused (.validation message))
      | .ok k =>
        match appendNeedRevision w.store r.needId r.expectedRevision (impactValues S r src k) with
        | .error failure => .error (.refused failure)
        | .ok (store, _) =>
          if r.stored = false then .error (.refused .data)
          else if w.outcomeTaken r src.outcome then .error .integrity
          else .ok ({ w with store := store, pairings := w.evaluated r src.outcome },
            w.store.needs.length)

end Recording

section Runs
variable (S : Service)

/-- What commits: a call on the needs, an ingestion, evidence of any origin, a pairing or an
impact. -/
inductive Call
  | need (op : NeedRecognition.Op)
  | ingest (m : MeasurementInput) (successor : Except String (Option SuccessorSnapshot))
  | storeEvidence (record : EvidenceRecord)
  | acceptPairing (request : PairingRequest)
  | recordImpact (request : ImpactRequest)

/-- A failed call leaves the world. An ingestion goes through `Call.ingest`. -/
def step (w : World) : Call → World
  | .need (.ingest m) =>
    match w.ingest S m (.ok none) with
    | .ok (w', _) => w'
    | .error _ => w
  | .need op => { w with store := NeedRecognition.step S.toPlatform w.store op }
  | .ingest m successor =>
    match w.ingest S m successor with
    | .ok (w', _) => w'
    | .error _ => w
  | .storeEvidence record => { w with evidence := w.evidence ++ [record] }
  | .acceptPairing request =>
    match w.acceptPairing S request with
    | .ok (w', _) => w'
    | .error _ => w
  | .recordImpact request =>
    match w.recordImpact S request with
    | .ok (w', _) => w'
    | .error _ => w

end Runs

end Ajenda.MeasurementImpact
