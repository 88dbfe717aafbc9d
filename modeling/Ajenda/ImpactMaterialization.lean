import Ajenda.MeasurementImpact

/-!
# Learning from a recorded impact

`_materialize_business_impact` reads an impact revision, its pairing, its measurements and its
outcome evidence again, under conditions of its own. Along a run nothing it reads changes after
the recording, so whether it accepts the revision is decided by the request that was recorded.
-/
namespace Ajenda.MeasurementImpact
open JsonValue GoalProgress NeedRecognition TransitionSystem

section Materialization
variable (S : Service)

structure BusinessImpactEpisode where
  impactRevisionId : ℕ
  needId : Text
  acceptedMeasurementPairingId : ℕ
  baselineMeasurementId : ℕ
  observedMeasurementId : ℕ
  outcomeEvidenceId : ℕ
  outcomeEvaluationId : String
  frozenSuccessorContract : SuccessorReference
  recommendation : String
  rootEvidenceIds : List String
  deriving DecidableEq

/-- `_uuid` of an entry. -/
def uuidField (impact : Fields) (key : String) : Except String ℕ :=
  found ((match Fields.get impact key with
    | some (.str text) => some text
    | _ => none).bind S.readUuid) "supporting evidence identity must be a durable UUID"

def artifactAction (e : EvidenceRecord) : Except String (Option String) :=
  match e.actionName, e.materializedAction with
  | some action, some materialized =>
    if action ≠ materialized then .error "durable evidence action provenance is contradictory"
    else .ok (some action)
  | some action, none => .ok (some action)
  | none, materialized => .ok materialized

/-- The checks that the evidence lineage, the decision snapshot and the learning signal make on
their own fields. -/
def episodeChecks (outcome : OutcomeEvaluation) (candidate : String) : List (Bool × String) :=
  [(outcome.supportingEvidenceIds.all fun id => Runtime.strip id = "",
      "known lineage requires source, root, parent, or ancestor identity"),
    (decide (160 < candidate.length), "String should have at most 160 characters"),
    (decide (Runtime.strip candidate = ""), "required decision snapshot fields must be non-empty"),
    (outcome.subjectTypes ≠ [] && outcome.signatureTypes ≠ [] &&
        decide (outcome.subjectTypes.toFinset ≠ outcome.signatureTypes.toFinset),
      "subject_semantic_signatures must match subject_refs object classes")]

/-- `_materialize_business_impact`. -/
def materializeBusinessImpact (w : World) (impactRevisionId : ℕ) :
    Except String BusinessImpactEpisode := do
  let revision ← found ((w.store.needs[impactRevisionId]?).filter fun row =>
    row.status = .impactMonitored) "business impact revision is inaccessible or incomplete"
  let impact ← found revision.impactAssessment
    "business impact revision is inaccessible or incomplete"
  let pairingId ← uuidField S impact.fields "accepted_measurement_pairing_id"
  let evidenceId ← uuidField S impact.fields "outcome_evidence_id"
  let baselineId ← uuidField S impact.fields "baseline_measurement_id"
  let observedId ← uuidField S impact.fields "observed_measurement_id"
  let evaluationId ← found (match Fields.get impact.fields "outcome_evaluation_id" with
    | some (.str text) => if text = "" then none else some text
    | _ => none) "business impact revision lacks an outcome evaluation identity"
  let pairing ← found (w.pairings[pairingId]?)
    "business impact revision contradicts its accepted measurement pairing"
  let evaluation ← found pairing.evaluation
    "business impact revision contradicts its accepted measurement pairing"
  require [(evaluation.impactRevisionId ≠ impactRevisionId ||
      evaluation.outcomeEvidenceId ≠ evidenceId ||
      evaluation.outcomeEvaluationId ≠ evaluationId ||
      pairing.baselineMeasurementId ≠ baselineId || pairing.observedMeasurementId ≠ observedId ||
      pairing.needId ≠ revision.needId ||
      some pairing.needRevisionId ≠ previousRevisionId w.store revision,
    "business impact revision contradicts its accepted measurement pairing")]
  let _ ← found (w.measurement baselineId) "business impact measurement is inaccessible"
  let observed ← found (w.measurement observedId) "business impact measurement is inaccessible"
  let reference ← found observed.intendedMeasurementReference
    "business impact episode requires a frozen successor measurement contract"
  let strategy := reference.strategyLineage
  require
    [(pairing.successorContractId ≠ some reference.contractId ||
        strategy.needId ≠ revision.needId || strategy.needRevision ≠ pairing.needRevision ||
        reference.measurementContract.baselineMeasurementId ≠ S.uuidText baselineId,
      "business impact episode contradicts its frozen successor contract"),
    (decide (strategy.selectedCandidateResponseKey = ""),
      "business impact episode lacks selected candidate provenance")]
  let record ← found (w.evidence[evidenceId]?) "decision episode outcome artifact is inaccessible"
  let action ← artifactAction record
  require
    [(action ≠ some outcomeAction, "durable artifact does not represent " ++ outcomeAction),
    (!record.runtimeOwned, "canonical tool evidence requires runtime provenance")]
  let outcome ← found record.outcome "canonical outcome evidence is invalid"
  require ([(outcome.outcomeEvaluationId ≠ evaluationId ||
      outcome.acceptedMeasurementPairingId ≠ some pairingId,
      "canonical outcome evidence contradicts the accepted pairing"),
    (evaluation.evaluatedAt ≠ outcome.evaluatedAt,
      "accepted pairing evaluation timestamp contradicts canonical outcome evidence")] ++
    episodeChecks outcome strategy.selectedCandidateResponseKey)
  pure ⟨impactRevisionId, revision.needId, pairingId, baselineId, observedId, evidenceId,
    evaluationId, reference, strategy.selectedCandidateResponseKey,
    outcome.supportingEvidenceIds⟩

end Materialization

section Checks

theorem bind_ok {ε α β : Type} {x : Except ε α} {f : α → Except ε β} {b : β} :
    (x >>= f) = .ok b ↔ ∃ a, x = .ok a ∧ f a = .ok b := by
  cases x with
  | error e => simp [bind, Except.bind]
  | ok a => simp [bind, Except.bind]

theorem require_ok {checks : List (Bool × String)} {u : Unit} :
    require checks = .ok u ↔ ∀ check ∈ checks, check.1 = false := by
  rw [← firstRefusal_eq_none]
  unfold require
  split
  next message h => simp [h]
  next h => simp [h]

theorem found_ok {α : Type} {o : Option α} {message : String} {a : α} :
    found o message = .ok a ↔ o = some a := by
  cases o with
  | none => simp [found]
  | some b => simp [found]

end Checks

section Recording
variable {S : Service} {w w' : World} {r : ImpactRequest} {src : ImpactSources}
  {pairingId impactId : ℕ}

/-- What admission established of an impact that goes through a pairing. -/
structure Admitted (S : Service) (w : World) (r : ImpactRequest) (src : ImpactSources)
    (pairingId : ℕ) (p : BusinessMeasurementPairing) : Prop where
  stored : w.pairings[pairingId]? = some p
  loaded : src.pairing = some p
  need : p.needId = r.needId
  paired : p.baselineMeasurementId = r.baselineMeasurementId ∧
    p.observedMeasurementId = r.observedMeasurementId
  current : w.store.needs[p.needRevisionId]? = some src.current
  currentId : revisionId w.store r.needId r.expectedRevision = some p.needRevisionId
  revision : p.needRevision = src.current.revision
  baseline : w.measurement r.baselineMeasurementId = some src.baseline
  later : w.measurement r.observedMeasurementId = some src.later
  checked : ∀ check ∈ measurementPairChecks S src.current r.baselineMeasurementId
    r.observedMeasurementId src.baseline src.later, check.1 = false
  evidence : w.evidence[r.outcomeEvidenceId]? = some src.evidence
  action : src.evidence.actionName = some outcomeAction
  outcome : src.evidence.outcome = some src.outcome
  names : src.outcome.acceptedMeasurementPairingId = some pairingId

theorem loadPairing_ok {pairing : Option BusinessMeasurementPairing}
    (hid : r.acceptedMeasurementPairingId = some pairingId) (h : w.loadPairing r = .ok pairing) :
    ∃ p, pairing = some p ∧ w.pairings[pairingId]? = some p ∧ p.needId = r.needId ∧
      p.baselineMeasurementId = r.baselineMeasurementId ∧
      p.observedMeasurementId = r.observedMeasurementId := by
  simp only [World.loadPairing, hid, bind_ok, found_ok, require_ok] at h
  obtain ⟨p, hp, _, hchecks, hpairing⟩ := h
  have hmatch := hchecks _ List.mem_cons_self
  simp only [Bool.or_eq_false_iff, decide_eq_false_iff_not, not_not, ne_eq] at hmatch
  exact ⟨p, (Except.ok.inj hpairing).symm, hp, hmatch.1.1, hmatch.1.2, hmatch.2⟩

theorem revisionId_row {s : Store} {needId : Text} {n id : ℕ} {row : BusinessNeedRevision}
    (h : revisionId s needId n = some id) (hrow : s.needs[id]? = some row) :
    row.needId = needId ∧ row.revision = n := by
  unfold revisionId at h
  rw [List.findIdx?_eq_some_iff_getElem] at h
  obtain ⟨hlt, hid, -⟩ := h
  rw [List.getElem?_eq_getElem hlt] at hrow
  simpa [Option.some.inj hrow] using hid

theorem impactSources_ok (hid : r.acceptedMeasurementPairingId = some pairingId)
    (h : w.impactSources S r = .ok src) : ∃ p, Admitted S w r src pairingId p := by
  simp only [World.impactSources, bind_ok, found_ok, require_ok] at h
  obtain ⟨pairing, hpairing, currentId, hcurrentId, current, hcurrent, _, hneed, baseline,
    hbaseline, later, hlater, _, hpair, evidence, hevidence, _, -, outcome, houtcome, _, hnames,
    hsrc⟩ := h
  obtain rfl := Except.ok.inj hsrc
  obtain ⟨p, rfl, hp, hpneed, hpaired⟩ := loadPairing_ok hid hpairing
  have hbelongs := hneed _ List.mem_cons_self
  simp only [Bool.or_eq_false_iff, decide_eq_false_iff_not, not_not, ne_eq] at hbelongs
  obtain ⟨rfl, hrevision⟩ := hbelongs
  rw [Option.filter_eq_some_iff, decide_eq_true_eq] at hevidence
  have hnamed := hnames _ List.mem_cons_self
  simp only [Option.isSome_some, Bool.true_and, decide_eq_false_iff_not, not_not, ne_eq] at hnamed
  exact ⟨p, hp, rfl, hpneed, hpaired, hcurrent, hcurrentId, hrevision, hbaseline, hlater,
    fun check hcheck => hpair check (List.mem_append_right _ hcheck), hevidence.1, hevidence.2,
    houtcome, hnamed.trans hid⟩

/-- A recording through an accepted pairing appends the impact revision and evaluates the
pairing. -/
theorem recordImpact_ok {p : BusinessMeasurementPairing} (ha : Admitted S w r src pairingId p)
    (hid : r.acceptedMeasurementPairingId = some pairingId) (hpending : p.evaluation = none)
    (hsrc : w.impactSources S r = .ok src) (h : w.recordImpact S r = .ok (w', impactId)) :
    impactId = w.store.needs.length ∧ ∃ k, w' = { w with
      store := { w.store with needs := w.store.needs ++
        [(impactValues S r src k).row r.needId (r.expectedRevision + 1)] }
      pairings := w.pairings.modify pairingId fun p => { p with
        evaluation := some ⟨r.outcomeEvidenceId, src.outcome.outcomeEvaluationId,
          w.store.needs.length, src.outcome.evaluatedAt⟩ } } := by
  unfold World.recordImpact at h
  simp only [hsrc, ha.loaded, Option.bind_some, hpending] at h
  split at h
  next => cases h
  next k _ =>
    split at h
    next => cases h
    next store row happend =>
      split_ifs at h
      obtain ⟨-, -, rfl, rfl⟩ := appendNeedRevision_ok.1 happend
      obtain ⟨rfl, rfl⟩ := Prod.mk.inj (Except.ok.inj h)
      exact ⟨rfl, k, by simp [World.evaluated, hid]⟩

end Recording

section Frame
variable {S : Service} {w w' w'' : World}

/-- Rows are only added, and an evaluated pairing is final. -/
structure World.Extends (w w' : World) : Prop where
  needs : w.store.needs <+: w'.store.needs
  measurements : w.store.measurements <+: w'.store.measurements
  intended : w.intended <+: w'.intended
  evidence : w.evidence <+: w'.evidence
  evaluated : ∀ (id : ℕ) (p : BusinessMeasurementPairing), w.pairings[id]? = some p →
    p.evaluation ≠ none → w'.pairings[id]? = some p

theorem World.Extends.refl (w : World) : w.Extends w :=
  ⟨List.prefix_refl _, List.prefix_refl _, List.prefix_refl _, List.prefix_refl _,
    fun _ _ h _ => h⟩

theorem World.Extends.store {observations : List BusinessObservation}
    {proposals missions : List String} (h : w.Extends w') : w.Extends { w' with
      store := ⟨observations, w'.store.measurements, w'.store.needs, proposals, missions⟩ } :=
  ⟨h.needs, h.measurements, h.intended, h.evidence, h.evaluated⟩

theorem World.Extends.trans (h : w.Extends w') (h' : w'.Extends w'') : w.Extends w'' :=
  ⟨h.needs.trans h'.needs, h.measurements.trans h'.measurements, h.intended.trans h'.intended,
    h.evidence.trans h'.evidence,
    fun id p hp he => h'.evaluated id p (h.evaluated id p hp he) he⟩

theorem getElem?_extended {α : Type} {xs ys : List α} {i : ℕ} {x : α} (h : xs <+: ys)
    (hx : xs[i]? = some x) : ys[i]? = some x := by
  obtain ⟨zs, rfl⟩ := h
  have hlt : i < xs.length := (List.getElem?_eq_some_iff.1 hx).1
  rwa [List.getElem?_append_left hlt]

theorem findIdx?_extended {α : Type} {xs ys : List α} {p : α → Bool} {i : ℕ} (h : xs <+: ys)
    (hx : xs.findIdx? p = some i) : ys.findIdx? p = some i := by
  obtain ⟨zs, rfl⟩ := h
  rw [List.findIdx?_append, hx]
  rfl

/-- The measurement an ingestion stores is there already or comes last, and needs are only
appended. -/
theorem ingested_rows {P : Platform} {s s' : Store} {m : MeasurementInput}
    (h : Ingested P s m s') : s.needs <+: s'.needs ∧
      (s'.measurements = s.measurements ∨ s'.measurements = s.measurements ++ [m.payload]) := by
  have hmeasured : (s.measured m).measurements = s.measurements ∨
      (s.measured m).measurements = s.measurements ++ [m.payload] := by
    simp only [Store.measured, findOrAdd]
    split
    · exact .inl rfl
    · exact .inr rfl
  cases h with
  | quiet => exact ⟨List.prefix_refl _, hmeasured⟩
  | known => exact ⟨List.prefix_refl _, hmeasured⟩
  | closed => exact ⟨List.prefix_refl _, hmeasured⟩
  | revised e row _ _ happend =>
    obtain ⟨-, -, -, rfl⟩ := appendNeedRevision_ok.1 happend
    exact ⟨List.prefix_append _ _, hmeasured⟩
  | opened row _ _ _ happend =>
    obtain ⟨-, -, -, rfl⟩ := appendNeedRevision_ok.1 happend
    exact ⟨List.prefix_append _ _, hmeasured⟩

/-- An ingestion adds a measurement together with its reference, or neither. -/
theorem World.ingest_ok {m : MeasurementInput}
    {successor : Except String (Option SuccessorSnapshot)} {need : Option BusinessNeedRevision}
    (h : w.ingest S m successor = .ok (w', need)) :
    w.store.needs <+: w'.store.needs ∧ w'.pairings = w.pairings ∧ w'.evidence = w.evidence ∧
      ((w'.store.measurements = w.store.measurements ∧ w'.intended = w.intended) ∨
        ∃ payload reference, w'.store.measurements = w.store.measurements ++ [payload] ∧
          w'.intended = w.intended ++ [reference]) := by
  simp only [World.ingest] at h
  split at h
  next => cases h
  next store _ hingest =>
    obtain ⟨rfl, -⟩ := Prod.mk.inj (Except.ok.inj h)
    obtain ⟨hneeds, hrows⟩ := ingested_rows (ingestMeasurement_ok hingest)
    refine ⟨hneeds, rfl, rfl, ?_⟩
    rcases hrows with hsame | hadded
    · exact .inl ⟨hsame, if_neg fun h => h (congrArg List.length hsame)⟩
    · exact .inr ⟨_, _, hadded, if_pos (by simp [hadded])⟩

theorem World.ingest_extends {m : MeasurementInput}
    {successor : Except String (Option SuccessorSnapshot)} {need : Option BusinessNeedRevision}
    (h : w.ingest S m successor = .ok (w', need)) : w.Extends w' := by
  obtain ⟨hneeds, hpairings, hevidence, hrows⟩ := World.ingest_ok h
  have hfinal : ∀ (id : ℕ) (p : BusinessMeasurementPairing), w.pairings[id]? = some p →
      p.evaluation ≠ none → w'.pairings[id]? = some p := fun id p hp _ => hpairings ▸ hp
  have hsame : w.evidence <+: w'.evidence := hevidence ▸ List.prefix_refl _
  rcases hrows with ⟨hm, hi⟩ | ⟨payload, reference, hm, hi⟩
  · exact ⟨hneeds, hm ▸ List.prefix_refl _, hi ▸ List.prefix_refl _, hsame, hfinal⟩
  · exact ⟨hneeds, hm ▸ List.prefix_append _ _, hi ▸ List.prefix_append _ _, hsame, hfinal⟩

/-- An acceptance finds its pairing or adds one for stored measurements. -/
theorem World.acceptPairing_ok {request : PairingRequest} {id : ℕ}
    (h : w.acceptPairing S request = .ok (w', id)) : w' = w ∨
      ∃ p later, w' = { w with pairings := w.pairings ++ [p] } ∧
        w.measurement p.observedMeasurementId = some later ∧
        p.successorContractId =
          later.intendedMeasurementReference.map SuccessorReference.contractId := by
  simp only [World.acceptPairing, bind_ok, found_ok] at h
  obtain ⟨baseline, -, later, hlater, h⟩ := h
  split at h
  next => exact .inl (Prod.mk.inj (Except.ok.inj h)).1.symm
  next =>
    simp only [bind_ok, found_ok] at h
    obtain ⟨currentId, -, current, -, _, -, h⟩ := h
    obtain ⟨rfl, -⟩ := Prod.mk.inj (Except.ok.inj h)
    exact .inr ⟨_, later, rfl, hlater, rfl⟩

/-- A recording leaves the world, or appends a need and evaluates a pairing that had no
evaluation. -/
theorem World.recordImpact_cases {r : ImpactRequest} {id : ℕ}
    (h : w.recordImpact S r = .ok (w', id)) : w' = w ∨
      ∃ row pairings, w' = { w with
          store := { w.store with needs := w.store.needs ++ [row] }
          pairings := pairings } ∧
        (pairings = w.pairings ∨ ∃ pairingId p e, w.pairings[pairingId]? = some p ∧
          p.evaluation = none ∧
          pairings = w.pairings.modify pairingId fun p => { p with evaluation := some e }) := by
  unfold World.recordImpact at h
  split at h
  next => cases h
  next src hsrc =>
    split at h
    next =>
      split_ifs at h
      exact .inl (Prod.mk.inj (Except.ok.inj h)).1.symm
    next hpending =>
      split at h
      next => cases h
      next =>
        split at h
        next => cases h
        next store row happend =>
          split_ifs at h
          obtain ⟨-, -, -, rfl⟩ := appendNeedRevision_ok.1 happend
          obtain ⟨rfl, -⟩ := Prod.mk.inj (Except.ok.inj h)
          refine .inr ⟨row, _, rfl, ?_⟩
          cases hid : r.acceptedMeasurementPairingId with
          | none => exact .inl (by simp [World.evaluated, hid])
          | some pairingId =>
            obtain ⟨p, ha⟩ := impactSources_ok hid hsrc
            rw [ha.loaded, Option.bind_some] at hpending
            exact .inr ⟨pairingId, p, _, ha.stored, hpending, by simp [World.evaluated, hid]; rfl⟩

theorem World.recordImpact_extends {r : ImpactRequest} {id : ℕ}
    (h : w.recordImpact S r = .ok (w', id)) : w.Extends w' := by
  rcases World.recordImpact_cases h with rfl | ⟨row, pairings, rfl, hpairings⟩
  · exact .refl w'
  refine ⟨List.prefix_append _ _, List.prefix_refl _, List.prefix_refl _, List.prefix_refl _,
    fun i q hq he => ?_⟩
  rcases hpairings with rfl | ⟨pairingId, p, e, hp, hpending, rfl⟩
  · exact hq
  · have hne : pairingId ≠ i := by
      rintro rfl
      rw [hp, Option.some.injEq] at hq
      exact he (hq ▸ hpending)
    rwa [List.getElem?_modify_ne _ _ hne]

theorem step_extends (w : World) (call : Call) : w.Extends (step S w call) := by
  cases call with
  | need op =>
    cases op with
    | ingest m =>
      simp only [step]
      split
      next h => exact World.ingest_extends h
      next => exact .refl w
    | appendNeed needId expected v =>
      simp only [step, NeedRecognition.step]
      split
      next happend =>
        obtain ⟨-, -, -, rfl⟩ := appendNeedRevision_ok.1 happend
        exact ⟨List.prefix_append _ _, List.prefix_refl _, List.prefix_refl _,
          List.prefix_refl _, fun _ _ h _ => h⟩
      next => exact .refl w
    | recordObservation => exact (World.Extends.refl w).store
    | addProposal => exact (World.Extends.refl w).store
    | addMission => exact (World.Extends.refl w).store
  | ingest m successor =>
    simp only [step]
    split
    next h => exact World.ingest_extends h
    next => exact .refl w
  | storeEvidence record =>
    exact ⟨List.prefix_refl _, List.prefix_refl _, List.prefix_refl _, List.prefix_append _ _,
      fun _ _ h _ => h⟩
  | acceptPairing request =>
    simp only [step]
    split
    next h =>
      rcases World.acceptPairing_ok h with rfl | ⟨p, later, rfl, -⟩
      · exact .refl _
      · exact ⟨List.prefix_refl _, List.prefix_refl _, List.prefix_refl _, List.prefix_refl _,
          fun _ _ h _ => getElem?_extended (List.prefix_append _ _) h⟩
    next => exact .refl w
  | recordImpact request =>
    simp only [step]
    split
    next h => exact World.recordImpact_extends h
    next => exact .refl w

theorem exec_extends (w : World) (calls : List Call) : w.Extends (exec (step S) w calls) := by
  induction calls generalizing w with
  | nil => exact .refl w
  | cons call calls ih => exact (step_extends w call).trans (ih _)

end Frame

section Linked
variable {S : Service} {w w' : World}

/-- Every measurement has its reference, and every pairing the contract its observed
measurement claims. -/
structure World.Linked (w : World) : Prop where
  aligned : w.intended.length = w.store.measurements.length
  contract : ∀ p ∈ w.pairings, ∃ later, w.measurement p.observedMeasurementId = some later ∧
    p.successorContractId = later.intendedMeasurementReference.map SuccessorReference.contractId

theorem World.Linked.start : World.empty.Linked := ⟨rfl, fun _ h => nomatch h⟩

theorem World.Linked.measurement (h : w.Linked) (hext : w.Extends w') {id : ℕ}
    {m : BusinessMeasurement} (hm : w.measurement id = some m) : w'.measurement id = some m := by
  simp only [World.measurement, Option.map_eq_some_iff] at hm ⊢
  obtain ⟨payload, hpayload, rfl⟩ := hm
  have hlt : id < w.intended.length := h.aligned ▸ (List.getElem?_eq_some_iff.1 hpayload).1
  have hreference : w.intended[id]? = some w.intended[id] := List.getElem?_eq_getElem hlt
  refine ⟨payload, getElem?_extended hext.measurements hpayload, ?_⟩
  rw [getElem?_extended hext.intended hreference, hreference]

/-- What keeps the measurements aligned and adds no pairing keeps the links. -/
theorem World.Linked.extend (h : w.Linked) (hext : w.Extends w')
    (haligned : w'.intended.length = w'.store.measurements.length)
    (hpairings : ∀ p ∈ w'.pairings, ∃ q ∈ w.pairings,
      p.observedMeasurementId = q.observedMeasurementId ∧
        p.successorContractId = q.successorContractId) : w'.Linked where
  aligned := haligned
  contract p hp := by
    obtain ⟨q, hq, hobserved, hcontract⟩ := hpairings p hp
    obtain ⟨later, hlater, hlink⟩ := h.contract q hq
    exact ⟨later, hobserved ▸ h.measurement hext hlater, hcontract.trans hlink⟩

theorem World.Linked.ingest {m : MeasurementInput}
    {successor : Except String (Option SuccessorSnapshot)} {need : Option BusinessNeedRevision}
    (h : w.Linked) (hok : w.ingest S m successor = .ok (w', need)) : w'.Linked := by
  obtain ⟨-, hpairings, -, hrows⟩ := World.ingest_ok hok
  refine h.extend (World.ingest_extends hok) ?_ fun p hp => ⟨p, hpairings ▸ hp, rfl, rfl⟩
  rcases hrows with ⟨hm, hi⟩ | ⟨payload, reference, hm, hi⟩
  · rw [hm, hi, h.aligned]
  · simp [hm, hi, h.aligned]

theorem World.Linked.acceptPairing {request : PairingRequest} {id : ℕ} (h : w.Linked)
    (hok : w.acceptPairing S request = .ok (w', id)) : w'.Linked := by
  rcases World.acceptPairing_ok hok with rfl | ⟨p, later, rfl, hlater, hcontract⟩
  · exact h
  · refine ⟨h.aligned, fun q hq => ?_⟩
    rcases List.mem_append.1 hq with hq | hq
    · exact h.contract q hq
    · obtain rfl := List.mem_singleton.1 hq
      exact ⟨later, hlater, hcontract⟩

theorem World.Linked.recordImpact {r : ImpactRequest} {id : ℕ} (h : w.Linked)
    (hok : w.recordImpact S r = .ok (w', id)) : w'.Linked := by
  have hext := World.recordImpact_extends hok
  rcases World.recordImpact_cases hok with rfl | ⟨row, pairings, rfl, hpairings⟩
  · exact h
  refine h.extend hext h.aligned fun p hp => ?_
  rcases hpairings with rfl | ⟨pairingId, q, e, -, -, rfl⟩
  · exact ⟨p, hp, rfl, rfl⟩
  · obtain ⟨i, hi⟩ := List.mem_iff_getElem?.1 hp
    rw [List.getElem?_modify, Option.map_eq_map, Option.map_eq_some_iff] at hi
    obtain ⟨old, hold, heq⟩ := hi
    refine ⟨old, List.mem_of_getElem? hold, ?_⟩
    split_ifs at heq
    · exact heq ▸ ⟨rfl, rfl⟩
    · exact heq ▸ ⟨rfl, rfl⟩

theorem step_linked (w : World) (call : Call) (h : w.Linked) : (step S w call).Linked := by
  have hext := step_extends (S := S) w call
  cases call with
  | need op =>
    cases op with
    | ingest m =>
      simp only [step]
      split
      next hok => exact h.ingest hok
      next => exact h
    | appendNeed needId expected v =>
      refine h.extend hext ?_ fun p hp => ⟨p, hp, rfl, rfl⟩
      simp only [step, NeedRecognition.step]
      split
      next happend =>
        obtain ⟨-, -, -, rfl⟩ := appendNeedRevision_ok.1 happend
        exact h.aligned
      next => exact h.aligned
    | recordObservation => exact ⟨h.aligned, h.contract⟩
    | addProposal => exact ⟨h.aligned, h.contract⟩
    | addMission => exact ⟨h.aligned, h.contract⟩
  | ingest m successor =>
    simp only [step]
    split
    next hok => exact h.ingest hok
    next => exact h
  | storeEvidence record => exact ⟨h.aligned, h.contract⟩
  | acceptPairing request =>
    simp only [step]
    split
    next hok => exact h.acceptPairing hok
    next => exact h
  | recordImpact request =>
    simp only [step]
    split
    next hok => exact h.recordImpact hok
    next => exact h

theorem exec_linked (calls : List Call) : (exec (step S) World.empty calls).Linked :=
  exec_preserves step_linked .start calls

end Linked

section Learnable
variable (S : Service)

/-- The outcome of a runtime row from which an episode on this candidate can be built. -/
structure OutcomeUsable (evidence : EvidenceRecord) (outcome : OutcomeEvaluation)
    (candidate : String) : Prop where
  action : evidence.materializedAction = none ∨ evidence.materializedAction = some outcomeAction
  runtimeOwned : evidence.runtimeOwned = true
  named : outcome.outcomeEvaluationId ≠ ""
  episode : ∀ check ∈ episodeChecks outcome candidate, check.1 = false

/-- The contract was frozen on the revision the impact is recorded on, and the outcome evidence
is usable. -/
structure World.Learnable (w : World) (r : ImpactRequest) (reference : SuccessorReference) :
    Prop where
  frozen : reference.strategyLineage.needRevision = r.expectedRevision
  usable : ∀ evidence ∈ w.evidence[r.outcomeEvidenceId]?, ∀ outcome ∈ evidence.outcome,
    OutcomeUsable evidence outcome reference.strategyLineage.selectedCandidateResponseKey

/-- The request commits an impact revision through an accepted pairing whose observed
measurement carries a successor contract. -/
structure Commits (w : World) (r : ImpactRequest) (reference : SuccessorReference) (w' : World)
    (impactId : ℕ) : Prop where
  recorded : w.recordImpact S r = .ok (w', impactId)
  accepted : ∃ id p, r.acceptedMeasurementPairingId = some id ∧ w.pairings[id]? = some p ∧
    p.evaluation = none
  claimed : ∃ later, w.measurement r.observedMeasurementId = some later ∧
    later.intendedMeasurementReference = some reference

variable {S} {w w' v : World} {r : ImpactRequest} {src : ImpactSources} {pairingId impactId k : ℕ}
  {p : BusinessMeasurementPairing} {reference : SuccessorReference}

/-- What materialization reads of a recorded impact. -/
structure Kept (S : Service) (v : World) (r : ImpactRequest) (src : ImpactSources)
    (pairingId : ℕ) (p : BusinessMeasurementPairing) (impactId k : ℕ) : Prop where
  row : v.store.needs[impactId]? =
    some ((impactValues S r src k).row r.needId (r.expectedRevision + 1))
  pairing : v.pairings[pairingId]? = some { p with evaluation := some ⟨r.outcomeEvidenceId,
    src.outcome.outcomeEvaluationId, impactId, src.outcome.evaluatedAt⟩ }
  previous : revisionId v.store r.needId r.expectedRevision = some p.needRevisionId
  baseline : v.measurement r.baselineMeasurementId = some src.baseline
  later : v.measurement r.observedMeasurementId = some src.later
  evidence : v.evidence[r.outcomeEvidenceId]? = some src.evidence

theorem getElem?_modify_self {α : Type} {xs : List α} {i : ℕ} {x : α} {f : α → α}
    (h : xs[i]? = some x) : (xs.modify i f)[i]? = some (f x) := by
  simp [h]

/-- What a recording stored stays, whatever runs after it. -/
theorem Admitted.kept (ha : Admitted S w r src pairingId p) (hw : w.Linked)
    (hid : r.acceptedMeasurementPairingId = some pairingId) (hpending : p.evaluation = none)
    (hsrc : w.impactSources S r = .ok src) (h : w.recordImpact S r = .ok (w', impactId))
    (hext : w'.Extends v) : ∃ k, Kept S v r src pairingId p impactId k := by
  have hwv : w.Extends v := (World.recordImpact_extends h).trans hext
  obtain ⟨rfl, k, rfl⟩ := recordImpact_ok ha hid hpending hsrc h
  refine ⟨k, ?_, ?_, ?_, ?_, ?_, ?_⟩
  · exact getElem?_extended hext.needs (by simp)
  · exact hext.evaluated _ _ (getElem?_modify_self ha.stored) (by simp)
  · exact findIdx?_extended hwv.needs ha.currentId
  · exact hw.measurement hwv ha.baseline
  · exact hw.measurement hwv ha.later
  · exact getElem?_extended hwv.evidence ha.evidence

/-- The entries materialization reads of the revision's assessment. -/
structure Assessed (S : Service) (r : ImpactRequest) (pairingId : ℕ) (evaluationId : String)
    (fields : Fields) : Prop where
  pairing : uuidField S fields "accepted_measurement_pairing_id" = .ok pairingId
  evidence : uuidField S fields "outcome_evidence_id" = .ok r.outcomeEvidenceId
  baseline : uuidField S fields "baseline_measurement_id" = .ok r.baselineMeasurementId
  observed : uuidField S fields "observed_measurement_id" = .ok r.observedMeasurementId
  evaluation : Fields.get fields "outcome_evaluation_id" = some (.str evaluationId)

theorem impactValues_assessed (hid : r.acceptedMeasurementPairingId = some pairingId) :
    ∃ a, ((impactValues S r src k).row r.needId (r.expectedRevision + 1)).impactAssessment =
      some a ∧ Assessed S r pairingId src.outcome.outcomeEvaluationId a.fields := by
  refine ⟨_, rfl, ?_⟩
  constructor <;>
    simp [impactFields, appendImpactHistory, impactKeys, hid, uuidField, Fields.get, found,
      S.read_text]

/-- The lineage conditions that hold of every admitted impact. -/
theorem Admitted.lineage (ha : Admitted S w r src pairingId p)
    (hreference : src.later.intendedMeasurementReference = some reference) :
    reference.strategyLineage.needId = r.needId ∧
      reference.measurementContract.baselineMeasurementId = S.uuidText r.baselineMeasurementId ∧
      reference.strategyLineage.selectedCandidateResponseKey ≠ "" := by
  have hchecks : ∀ check ∈ lineageChecks S src.current r.baselineMeasurementId src.baseline
      src.later reference, check.1 = false := fun check hcheck =>
    ha.checked check (List.mem_append_right _ (by simpa [hreference] using hcheck))
  simp only [lineageChecks, List.forall_mem_cons, Bool.or_eq_false_iff,
    decide_eq_false_iff_not, not_not, ne_eq, List.any_eq_false, decide_eq_true_eq] at hchecks
  obtain ⟨⟨⟨-, hstrings⟩, -⟩, -, -, -, hcontract, -⟩ := hchecks
  obtain ⟨hneed, -⟩ := revisionId_row ha.currentId ha.current
  refine ⟨?_, ?_, ?_⟩
  · rw [← hneed]
    exact hcontract.1.1.1.1.1.1.1.1
  · exact hcontract.1.1.1.1.1.1.2
  · exact hstrings.2.2.2.2.2.1

theorem artifactAction_ok {e : EvidenceRecord} (h : e.actionName = some outcomeAction)
    {action : Option String} : artifactAction e = .ok action ↔ action = some outcomeAction ∧
      (e.materializedAction = none ∨ e.materializedAction = some outcomeAction) := by
  unfold artifactAction
  rw [h]
  cases hm : e.materializedAction with
  | none => simp [eq_comm]
  | some materialized =>
    by_cases heq : outcomeAction = materialized
    · simp [heq, eq_comm]
    · simp [heq, Ne.symm heq]

/-- Materialization of a recorded impact tests what admission left open, and nothing else. -/
theorem Kept.materialize_iff (hk : Kept S v r src pairingId p impactId k)
    (ha : Admitted S w r src pairingId p) (hid : r.acceptedMeasurementPairingId = some pairingId)
    (hreference : src.later.intendedMeasurementReference = some reference)
    (hcontract : p.successorContractId = some reference.contractId) :
    (∃ episode, materializeBusinessImpact S v impactId = .ok episode) ↔
      reference.strategyLineage.needRevision = r.expectedRevision ∧
        OutcomeUsable src.evidence src.outcome
          reference.strategyLineage.selectedCandidateResponseKey := by
  obtain ⟨a, hassessment, hassessed⟩ : ∃ a,
      ((impactValues S r src k).row r.needId (r.expectedRevision + 1)).impactAssessment = some a ∧
        Assessed S r pairingId src.outcome.outcomeEvaluationId a.fields :=
    impactValues_assessed hid
  obtain ⟨hneed, hbaseline, hcandidate⟩ := ha.lineage hreference
  have hrevision : p.needRevision = r.expectedRevision :=
    ha.revision.trans (revisionId_row ha.currentId ha.current).2
  have hrow := hk.row
  have hstatus : ((impactValues S r src k).row r.needId (r.expectedRevision + 1)).status =
      .impactMonitored := rfl
  have hprevious : previousRevisionId v.store
      ((impactValues S r src k).row r.needId (r.expectedRevision + 1)) = some p.needRevisionId :=
    hk.previous
  have hneedId : ((impactValues S r src k).row r.needId (r.expectedRevision + 1)).needId =
      r.needId := rfl
  generalize (impactValues S r src k).row r.needId (r.expectedRevision + 1) = row at *
  have hmonitored : (some row).filter (fun row => decide (row.status = .impactMonitored)) =
      some row := by simp [hstatus]
  simp only [materializeBusinessImpact, bind_ok, found_ok, require_ok, hrow, hmonitored,
    hassessment, hassessed.pairing, hassessed.evidence, hassessed.baseline, hassessed.observed,
    hassessed.evaluation, hk.pairing, hk.baseline, hk.later, hk.evidence, hreference, ha.outcome,
    Option.some.injEq, Except.ok.injEq, exists_eq_left',
    artifactAction_ok ha.action]
  have hpaired : ∀ a, a = src.outcome.outcomeEvaluationId → ∀ check ∈
      [(decide (impactId ≠ impactId) || decide (r.outcomeEvidenceId ≠ r.outcomeEvidenceId) ||
          decide (src.outcome.outcomeEvaluationId ≠ a) ||
          decide (p.baselineMeasurementId ≠ r.baselineMeasurementId) ||
          decide (p.observedMeasurementId ≠ r.observedMeasurementId) ||
          decide (p.needId ≠ row.needId) ||
          decide (some p.needRevisionId ≠ previousRevisionId v.store row),
        "business impact revision contradicts its accepted measurement pairing")],
      check.1 = false := by
    rintro a rfl
    simp [ha.paired, ha.need, hneedId, hprevious]
  constructor
  · rintro ⟨-, a, hnamed, -, -, -, hfrozen, _, ⟨rfl, haction⟩, -, howned, -, hepisode, -⟩
    have hrevised := hfrozen _ List.mem_cons_self
    simp only [Bool.or_eq_false_iff, decide_eq_false_iff_not, not_not, ne_eq] at hrevised
    refine ⟨hrevised.1.2.trans hrevision, haction, ?_, ?_, fun check hcheck =>
      hepisode check (List.mem_append_right _ hcheck)⟩
    · simpa using howned _ (List.mem_cons_of_mem _ List.mem_cons_self)
    · intro hempty
      simp [hempty] at hnamed
  · rintro ⟨hfrozen, husable⟩
    refine ⟨_, _, if_neg husable.named, (), hpaired _ rfl, (), ?_, _, ⟨rfl, husable.action⟩, (), ?_,
      (), ?_, rfl⟩
    · simp [hcontract, hneed, hneedId, hfrozen, hrevision, hbaseline, hcandidate]
    · simp [husable.runtimeOwned]
    · rw [List.forall_mem_append]
      exact ⟨by simp [ha.names], husable.episode⟩

/-- A committed impact can be learned from, at any later time, exactly when its contract was
frozen on the revision it is recorded on and its outcome evidence is usable. -/
theorem recorded_impact_learnable (before after : List Call) (r : ImpactRequest)
    (reference : SuccessorReference) (w' : World) (impactId : ℕ)
    (h : Commits S (exec (step S) World.empty before) r reference w' impactId) :
    (∃ episode,
        materializeBusinessImpact S (exec (step S) w' after) impactId = .ok episode) ↔
      (exec (step S) World.empty before).Learnable r reference := by
  have hw : (exec (step S) World.empty before).Linked := exec_linked before
  generalize exec (step S) World.empty before = w at h hw ⊢
  obtain ⟨pairingId, p, hid, hp, hpending⟩ := h.accepted
  obtain ⟨later, hlater, hreference⟩ := h.claimed
  have hsrc : ∃ src, w.impactSources S r = .ok src := by
    have hrecorded := h.recorded
    unfold World.recordImpact at hrecorded
    split at hrecorded
    next => cases hrecorded
    next src hsrc => exact ⟨src, hsrc⟩
  obtain ⟨src, hsrc⟩ := hsrc
  obtain ⟨q, ha⟩ := impactSources_ok hid hsrc
  obtain rfl : p = q := Option.some.inj (hp.symm.trans ha.stored)
  obtain rfl : later = src.later := Option.some.inj (hlater.symm.trans ha.later)
  obtain ⟨k, hk⟩ := ha.kept hw hid hpending hsrc h.recorded (exec_extends w' after)
  have hcontract : p.successorContractId = some reference.contractId := by
    obtain ⟨observed, hobserved, hlink⟩ := hw.contract p (List.mem_of_getElem? hp)
    rw [ha.paired.2, ha.later, Option.some.injEq] at hobserved
    rw [hlink, ← hobserved, hreference, Option.map_some]
  rw [hk.materialize_iff ha hid hreference hcontract]
  constructor
  · rintro ⟨hfrozen, husable⟩
    refine ⟨hfrozen, fun evidence hevidence outcome houtcome => ?_⟩
    obtain rfl := Option.some.inj (ha.evidence.symm.trans hevidence)
    obtain rfl := Option.some.inj (ha.outcome.symm.trans houtcome)
    exact husable
  · intro hlearnable
    exact ⟨hlearnable.frozen, hlearnable.usable _ ha.evidence _ ha.outcome⟩

end Learnable

section Example

def sampleService : Service where
  toPlatform := samplePlatform
  contractId lineage := "contract of " ++ lineage.successorMissionId
  uuidText id := String.ofList (List.replicate (id + 1) 'i')
  readUuid text := some (text.toList.length - 1)
  read_text id := by simp
  dumpOutcome _ := .null

/-- A snapshot frozen on the first revision of a need, with the first measurement as baseline. -/
def frozenSnapshot (needId : Text) : SuccessorSnapshot where
  lineage :=
    { successorMissionId := "mission"
      successorProposalId := none
      semanticSnapshotId := "snapshot"
      semanticSnapshotSha256 := "sha"
      strategyLineage := ⟨needId, 1, "assessment", "fingerprint", "send_reminder"⟩
      measurementContract :=
        { baselineMeasurementId := sampleService.uuidText 0
          baselineSourceContentFingerprint := .measurement (sampleMeasurement "v1" 1).payload
          subjectReferences := sampleGoal.subjects
          objectiveKey := "replies"
          metric := "reply_rate"
          notBefore := ⟨1, some 0⟩ } }
  baselineMeasurementId := sampleService.uuidText 0

def sampleOutcome : OutcomeEvaluation where
  outcomeEvaluationId := "evaluation"
  acceptedMeasurementPairingId := some 0
  goalId := some "replies"
  status := .noMaterialChange
  kpiDeltas := [⟨"k", some 4, some 4, some 10, "reply_rate"⟩]
  resolvedObservedAt := some ⟨2, some 0⟩
  evaluatedAt := 3
  supportingEvidenceIds := ["measured"]
  subjectTypes := ["account"]
  signatureTypes := ["account"]

def sampleEvidence : EvidenceRecord :=
  ⟨some outcomeAction, some outcomeAction, "evaluation mission", some sampleOutcome, true⟩

def customerNeed : NeedValues :=
  { supersede with
    status := .recognized
    objectiveReference := some ⟨"faster replies", none⟩
    conditionSummary := "Replies are slow" }

/-- A gap is recognised and a need stated beside it; a successor is frozen on the first revision
of one of them, its measurement ingested and the pairing accepted on a revision of that need. -/
def sampleRun (needId : Text) (revision : ℕ) : List Call :=
  [.need (.addMission "evaluation mission"),
    .ingest (sampleMeasurement "v1" 1) (.ok none),
    .need (.appendNeed (.plain "customer need") 0 customerNeed),
    .ingest (sampleMeasurement "v2" 2) (.ok (some (frozenSnapshot needId))),
    .acceptPairing ⟨needId, revision, 0, 1⟩,
    .storeEvidence sampleEvidence]

def sampleWorld (needId : Text) (revision : ℕ) : World :=
  exec (step sampleService) World.empty (sampleRun needId revision)

def sampleRequest (needId : Text) (revision : ℕ) : ImpactRequest :=
  ⟨needId, revision, 0, 1, 0, some 0, "owner", none⟩

def sampleRecorded (needId : Text) (revision : ℕ) : World :=
  step sampleService (sampleWorld needId revision) (.recordImpact (sampleRequest needId revision))

def sampleReference (needId : Text) : SuccessorReference :=
  ⟨(frozenSnapshot needId).lineage, "contract of mission"⟩

/-- The measurement that claims the contract. -/
def sampleObserved (needId : Text) : BusinessMeasurement :=
  ⟨{ (sampleMeasurement "v2" 2).payload with intendedContractId := some "contract of mission" },
    some (sampleReference needId)⟩

/-- The second measurement revises the recognised need and leaves the stated one. -/
theorem recorded_impact_learnable_stated_need :
    ∃ episode, materializeBusinessImpact sampleService
      (exec (step sampleService) (sampleRecorded (.plain "customer need") 1) []) 3 =
        .ok episode := by
  refine (recorded_impact_learnable (sampleRun (.plain "customer need") 1) []
    (sampleRequest (.plain "customer need") 1) (sampleReference (.plain "customer need"))
    (sampleRecorded (.plain "customer need") 1) 3 ⟨?_, ?_, ?_⟩).2 ⟨rfl, ?_⟩
  · decide +kernel
  · exact ⟨0, ⟨.plain "customer need", 1, 1, 0, 1, some "contract of mission", none⟩,
      rfl, by decide +kernel, rfl⟩
  · exact ⟨sampleObserved (.plain "customer need"), by decide +kernel, rfl⟩
  · have hevidence : (sampleWorld (.plain "customer need") 1).evidence[0]? =
        some sampleEvidence := by decide +kernel
    intro evidence hmem outcome houtcome
    obtain rfl := Option.some.inj (hevidence.symm.trans hmem)
    obtain rfl : sampleOutcome = outcome := Option.some.inj houtcome
    exact ⟨.inr rfl, rfl, by decide, by decide +kernel⟩

/-- The ordinary course: the contract is frozen on the first revision of the recognised need,
ingesting its measurement appends the second, and the impact recorded on it is refused. -/
theorem ordinary_course_not_learnable :
    Commits sampleService (sampleWorld sampleNeedId 2) (sampleRequest sampleNeedId 2)
        (sampleReference sampleNeedId) (sampleRecorded sampleNeedId 2) 3 ∧
      materializeBusinessImpact sampleService (sampleRecorded sampleNeedId 2) 3 =
        .error "business impact episode contradicts its frozen successor contract" := by
  refine ⟨⟨?_, ?_, ?_⟩, ?_⟩
  · decide +kernel
  · exact ⟨0, ⟨sampleNeedId, 2, 2, 0, 1, some "contract of mission", none⟩, rfl,
      by decide +kernel, rfl⟩
  · exact ⟨sampleObserved sampleNeedId, by decide +kernel, rfl⟩
  · decide +kernel

end Example

end Ajenda.MeasurementImpact
