import Ajenda.KnowledgeRetrieval

/-!
# What the prefilter of the retrieval keeps

A proposition that answers the query passes every clause of the prefilter, as far as JSONB reads
its payload as Python does. So the retrieval finds what a reading of the whole ledger would.
-/
namespace Ajenda.Knowledge
open JsonValue (Json Jsonb contains_field field_exact field_loads field_of_pyEq fieldText_of_pyEq
  loads_of_plain plain_exact plainItems)
open Ajenda.Experience (BusinessObjectType GoalSemanticSignature KpiSemanticSignature)

section Clauses
variable {text : Jsonb → String} {query : KnowledgeRetrievalQuery} {p : KnowledgeProposition}
  {row : KnowledgeArtifactRecord} {payload : Jsonb}

/-- No boolean stands in the signatures of the payload, nor a number that is read as another. -/
def SignaturesPlain (payload : Jsonb) : Prop :=
  ∀ key ∈ ["subject_semantic_signatures", "kpi_semantic_signatures"],
    ∀ j ∈ payload.field key, j.plain = true

theorem plainItems_map {α : Type} {f : α → Json} (h : ∀ x, (f x).plain = true) (xs : List α) :
    plainItems (xs.map f) = true := by
  induction xs with
  | nil => rfl
  | cons x xs ih => rw [List.map_cons, plainItems, h x, ih]; rfl

theorem dumpSubject_plain (subject : BusinessObjectType) : (dumpSubject subject).plain = true := rfl

theorem dumpKpi_plain (kpi : KpiSemanticSignature) : (dumpKpi kpi).plain = true := by
  cases h : kpi.normalizedUnit <;> simp [dumpKpi, h, optionalText, schemaVersion, Json.plain,
    JsonValue.plainFields]

/-- A list of signatures in the payload of a proposition contains any part of itself. -/
theorem contains_signatures {α : Type} {dump : α → Json} (key : String) {xs ys : List α}
    (hdump : ∀ x, (dump x).plain = true) (hpayload : payload.loads.pyEq (dumpProposition p) = true)
    (hfield : JsonValue.Fields.get (propositionFields p) key = some (.arr (ys.map dump)))
    (hplain : ∀ j ∈ payload.field key, j.plain = true) (hsub : ∀ x ∈ xs, x ∈ ys) :
    payload.exact.contains (.obj [(key, .arr (xs.map dump))]) = true := by
  obtain ⟨v, hv, heq⟩ := field_of_pyEq hpayload hfield
  rw [field_loads] at hv
  obtain ⟨stored, hstored, rfl⟩ := Option.map_eq_some_iff.1 hv
  have hread := hplain stored hstored
  rw [loads_of_plain stored hread] at heq
  have hexact : payload.exact.field key = some stored.exact := by rw [field_exact, hstored]; rfl
  refine contains_field hexact heq (plain_exact stored hread) (plainItems_map hdump ys) fun z hz => ?_
  obtain ⟨x, hx, rfl⟩ := List.mem_map.1 hz
  exact List.mem_map_of_mem (hsub x hx)

/-- A text in the payload of a proposition is read as it is. -/
theorem fieldText_proposition {key value : String} (hpayload : payload.loads.pyEq (dumpProposition p) = true)
    (hfield : JsonValue.Fields.get (propositionFields p) key = some (.str value)) :
    payload.fieldText text key = some value := by
  obtain ⟨v, hv, heq⟩ := field_of_pyEq hpayload hfield
  rw [field_loads] at hv
  obtain ⟨stored, hstored, rfl⟩ := Option.map_eq_some_iff.1 hv
  exact fieldText_of_pyEq hstored heq

/-- Equal objectives or equal measurements: what the goal of an answer shares with the query. -/
theorem goal_shared {left right : GoalSemanticSignature}
    (h : (compareGoalSemantics left right).status ∈
      [GoalSemanticComparisonStatus.equivalent, .partiallyEquivalent]) :
    (∃ key, left.objectiveKey = some key ∧ right.objectiveKey = some key) ∨
      left.kpis ≠ [] ∧ left.kpis = right.kpis := by
  unfold compareGoalSemantics at h
  split at h
  next l r hl hr =>
    split_ifs at h with heq
    · exact .inl ⟨l, hl, heq ▸ hr⟩
    · simp at h
  next =>
    split_ifs at h with hboth heq
    · exact .inr ⟨hboth.1, heq⟩
    · simp at h
    · simp at h

/-- The row of a proposition that answers the query is a candidate. -/
theorem isCandidate_of_answers
    (hpayload : row.propositionPayload.loads.pyEq (dumpProposition p) = true)
    (hplain : SignaturesPlain row.propositionPayload) (h : answers query p = true) :
    isCandidate text query row = true := by
  simp only [answers, Bool.and_eq_true, decide_eq_true_eq, List.all_eq_true, Bool.or_eq_true] at h
  obtain ⟨⟨⟨⟨hsubjects, -⟩, hrelationship⟩, hintervention⟩, hgoal⟩ := h
  have hsubject := contains_signatures "subject_semantic_signatures" dumpSubject_plain hpayload
    rfl (hplain _ (by simp)) hsubjects
  have htype : row.propositionPayload.fieldText text "relationship_type" =
      some p.relationshipType.value := fieldText_proposition hpayload rfl
  have hkey : row.propositionPayload.fieldText text "intervention_key" = some p.interventionKey :=
    fieldText_proposition hpayload rfl
  simp only [isCandidate, hsubject, htype, hkey, Bool.true_and, Option.any_some,
    Bool.and_eq_true, decide_eq_true_eq, Bool.or_eq_true]
  refine ⟨⟨List.mem_map_of_mem hrelationship, ?_⟩, hintervention⟩
  rcases goal_shared hgoal with ⟨key, hquery, hp⟩ | ⟨hne, hkpis⟩
  · have hobjective : row.propositionPayload.fieldText text "objective_key" = some key := by
      refine fieldText_proposition hpayload ?_
      change some (optionalText p.objectiveKey) = _
      rw [show p.objectiveKey = some key from hp]
      rfl
    exact .inl (by simp [hquery, hobjective])
  · refine .inr ⟨hne, contains_signatures "kpi_semantic_signatures" dumpKpi_plain
      hpayload rfl (hplain _ (by simp)) fun k hk => ?_⟩
    rw [hkpis] at hk
    exact hk

end Clauses

section Ledger
variable {P : PayloadParsers} {text : Jsonb → String} {ledger : KnowledgeLedger} {tenantId : String}
  {query : KnowledgeRetrievalQuery} {key : String} {state : CurrentKnowledgeState}
  {artifacts : List QualifiedKnowledgeArtifact} {qualifications : List KnowledgeQualificationResult}
  {p : KnowledgeProposition} {m : RetrievedKnowledgeMatch} {i : Inspected}

/-- No check raises on what the ledger holds of the tenant. -/
def PassesChecks (P : PayloadParsers) (ledger : KnowledgeLedger) (tenantId : String) : Prop :=
  ∀ key ∈ ledger.propositionKeys tenantId, ∃ state,
    resolveCurrentKnowledgeState P ledger tenantId key = .ok state ∧
      (state.hasAuthority = true → ∃ records,
        authoritativeRecords P ledger tenantId state = .ok records ∧
          ∃ p, authoritativeProposition state records.1 records.2 = .ok p)

/-- The proposition matches in a reading of the whole ledger. -/
def MatchedInLedger (P : PayloadParsers) (ledger : KnowledgeLedger) (tenantId : String)
    (query : KnowledgeRetrievalQuery) (key : String) : Prop :=
  key ∈ ledger.propositionKeys tenantId ∧ ∃ state artifacts m,
    resolveCurrentKnowledgeState P ledger tenantId key = .ok state ∧
      (ledger.artifactsFor tenantId state.authoritativeKnowledgeIds).mapM
        (validateArtifactRecord P) = .ok artifacts ∧
      matchCurrentKnowledge query state artifacts [] = .ok (some m)

theorem validateArtifactRecord_ok {record : KnowledgeArtifactRecord} {a : QualifiedKnowledgeArtifact}
    (h : validateArtifactRecord P record = .ok a) :
    record.propositionKey = a.proposition.propositionKey ∧
      record.propositionPayload.loads.pyEq (dumpProposition a.proposition) = true := by
  unfold validateArtifactRecord at h
  cases hparse : P.artifact record.artifactPayload with
  | none => rw [hparse] at h; cases h
  | some b =>
    rw [hparse] at h
    simp only at h
    split_ifs at h with hbad
    · cases h
    · cases h
      push Not at hbad
      exact ⟨hbad.2.1, by simpa using hbad.2.2.2.2.2⟩

theorem authoritativeProposition_ok
    (h : authoritativeProposition state artifacts qualifications = .ok p) :
    (∃ a ∈ artifacts, a.proposition = p) ∧ p.propositionKey = state.propositionKey ∧
      authoritativeProposition state artifacts [] = .ok p := by
  unfold authoritativeProposition at h ⊢
  simp only at h ⊢
  by_cases hids : (orderedArtifacts artifacts).map (·.knowledgeId) ≠
      sorted state.authoritativeKnowledgeIds ∨ ¬(sorted state.authoritativeKnowledgeIds).Nodup
  · rw [if_pos hids] at h
    cases h
  · rw [if_neg hids] at h ⊢
    split at h
    next q hq =>
      by_cases hkey : q.propositionKey ≠ state.propositionKey
      · rw [if_pos hkey] at h
        cases h
      · rw [if_neg hkey] at h
        split_ifs at h
        · cases h
        · cases h
          have hmem : p ∈ (artifacts.map (·.proposition)).dedup := by rw [hq]; simp
          obtain ⟨a, ha, hp⟩ := List.mem_map.1 (List.mem_dedup.1 hmem)
          rw [if_neg hkey]
          exact ⟨⟨a, ha, hp⟩, not_not.1 hkey, by simp⟩
    next => cases h

/-- When a match is found. -/
theorem matchCurrentKnowledge_some :
    matchCurrentKnowledge query state artifacts qualifications = .ok (some m) →
      state.hasAuthority = true ∧
        authoritativeProposition state artifacts qualifications = .ok m.proposition ∧
          answers query m.proposition = true := by
  intro h
  unfold matchCurrentKnowledge at h
  split_ifs at h with hauthority
  · cases h
  · obtain ⟨p, hp, h⟩ := Fallible.bind_eq_ok.1 h
    split_ifs at h with hanswers
    · cases h
      exact ⟨by simpa using hauthority, hp, hanswers⟩
    · cases h

theorem exists_match (hauthority : state.hasAuthority = true)
    (hp : authoritativeProposition state artifacts qualifications = .ok p)
    (hanswers : answers query p = true) :
    ∃ m, matchCurrentKnowledge query state artifacts qualifications = .ok (some m) ∧
      m.proposition = p := by
  unfold matchCurrentKnowledge
  rw [if_neg (by simp [hauthority]), hp]
  exact ⟨_, Fallible.bind_eq_ok.2 ⟨p, rfl, if_pos hanswers⟩, rfl⟩

variable (query) in
theorem match_exists_ok (hp : state.hasAuthority = true →
      ∃ p, authoritativeProposition state artifacts qualifications = .ok p) :
    ∃ found, matchCurrentKnowledge query state artifacts qualifications = .ok found := by
  unfold matchCurrentKnowledge
  split_ifs with hauthority
  · exact ⟨none, rfl⟩
  · obtain ⟨p, hp⟩ := hp (by simpa using hauthority)
    rw [hp]
    refine Fallible.exists_bind_ok.2 ⟨p, rfl, ?_⟩
    split_ifs <;> exact ⟨_, rfl⟩

variable (query) in
/-- Inspecting a proposition gives the match of its records. -/
theorem inspectCandidate_ok (hchecks : PassesChecks P ledger tenantId)
    (hkey : key ∈ ledger.propositionKeys tenantId) :
    ∃ i, inspectCandidate P ledger tenantId query key = .ok i := by
  obtain ⟨state, hstate, hauthority⟩ := hchecks key hkey
  refine Fallible.exists_bind_ok.2 ⟨state, hstate, ?_⟩
  split_ifs with h
  · obtain ⟨records, hrecords, p, hp⟩ := hauthority h
    obtain ⟨found, hfound⟩ := match_exists_ok query fun _ => ⟨p, hp⟩
    refine Fallible.exists_bind_ok.2 ⟨records, hrecords, ?_⟩
    exact ⟨_, Fallible.bind_eq_ok.2 ⟨found, hfound, rfl⟩⟩
  · exact ⟨_, rfl⟩

theorem authoritativeRecords_ok {records : List QualifiedKnowledgeArtifact ×
      List KnowledgeQualificationResult}
    (h : authoritativeRecords P ledger tenantId state = .ok records) :
    (ledger.artifactsFor tenantId state.authoritativeKnowledgeIds).mapM
      (validateArtifactRecord P) = .ok records.1 := by
  obtain ⟨artifacts, hartifacts, h⟩ := Fallible.bind_eq_ok.1 h
  obtain ⟨found, -, h⟩ := Fallible.bind_eq_ok.1 h
  obtain ⟨qualifications, -, h⟩ := Fallible.bind_eq_ok.1 h
  cases h
  exact hartifacts

/-- The match of an inspected proposition carries its key and is that of the whole ledger. -/
theorem inspectCandidate_found (hkey : key ∈ ledger.propositionKeys tenantId)
    (h : inspectCandidate P ledger tenantId query key = .ok i) (hfound : i.found = some m) :
    m.proposition.propositionKey = key ∧ MatchedInLedger P ledger tenantId query key := by
  obtain ⟨state, hstate, h⟩ := Fallible.bind_eq_ok.1 h
  split_ifs at h with hauthority
  · obtain ⟨records, hrecords, h⟩ := Fallible.bind_eq_ok.1 h
    obtain ⟨found, hmatch, h⟩ := Fallible.bind_eq_ok.1 h
    cases h
    cases hfound
    obtain ⟨-, hp, hanswers⟩ := matchCurrentKnowledge_some hmatch
    obtain ⟨-, hpkey, hp⟩ := authoritativeProposition_ok hp
    obtain ⟨n, hn, -⟩ := exists_match hauthority hp hanswers
    refine ⟨hpkey.trans (resolveCurrent_key hstate), hkey, state, records.1, n, hstate, ?_, hn⟩
    exact authoritativeRecords_ok hrecords
  · cases h
    cases hfound

/-- What matches in the whole ledger is found when it is inspected. -/
theorem inspectCandidate_of_matched (hchecks : PassesChecks P ledger tenantId)
    (hmatched : MatchedInLedger P ledger tenantId query key) :
    ∃ i m, inspectCandidate P ledger tenantId query key = .ok i ∧ i.found = some m ∧
      m.proposition.propositionKey = key := by
  obtain ⟨hkey, state, artifacts, m, hstate, hartifacts, hm⟩ := hmatched
  obtain ⟨i, hi⟩ := inspectCandidate_ok query hchecks hkey
  obtain ⟨hauthority, hp, hanswers⟩ := matchCurrentKnowledge_some hm
  obtain ⟨state', hstate', hrecords⟩ := hchecks key hkey
  rw [hstate] at hstate'
  cases hstate'
  obtain ⟨records, hrecords, p, hp'⟩ := hrecords hauthority
  have hsame : artifacts = records.1 :=
    Except.ok.inj (hartifacts.symm.trans (authoritativeRecords_ok hrecords))
  obtain ⟨-, hpkey, hp''⟩ := authoritativeProposition_ok hp'
  rw [hsame, hp''] at hp
  cases hp
  obtain ⟨n, hn, hnp⟩ := exists_match hauthority hp' hanswers
  refine ⟨⟨state, records.1, some n⟩, n, ?_, rfl, ?_⟩
  · refine Fallible.bind_eq_ok.2 ⟨state, hstate, ?_⟩
    rw [if_pos hauthority]
    exact Fallible.bind_eq_ok.2 ⟨records, hrecords, Fallible.bind_eq_ok.2 ⟨some n, hn, rfl⟩⟩
  · rw [hnp]
    exact hpkey.trans (resolveCurrent_key hstate)

/-- What matches in the whole ledger is a candidate. -/
theorem candidate_of_matched (hplain : ∀ row ∈ ledger.artifacts, row.tenantId = tenantId →
      SignaturesPlain row.propositionPayload)
    (hmatched : MatchedInLedger P ledger tenantId query key) :
    key ∈ candidatePropositionKeys text ledger tenantId query := by
  obtain ⟨-, state, artifacts, m, hstate, hartifacts, hm⟩ := hmatched
  obtain ⟨-, hp, hanswers⟩ := matchCurrentKnowledge_some hm
  obtain ⟨⟨a, ha, hap⟩, hpkey, -⟩ := authoritativeProposition_ok hp
  obtain ⟨row, hrow, hvalid⟩ := (Fallible.mem_mapM_ok hartifacts).1 ha
  obtain ⟨hrowKey, hpayload⟩ := validateArtifactRecord_ok hvalid
  have hstored : row ∈ ledger.artifacts ∧ row.tenantId = tenantId := by
    have := (List.mem_insertionSort _).1 hrow
    simp only [List.mem_filter, decide_eq_true_eq] at this
    exact ⟨this.1, this.2.1⟩
  rw [hap] at hpayload hrowKey
  have hcandidate : isCandidate text query row = true := isCandidate_of_answers hpayload
    (hplain row hstored.1 hstored.2) hanswers
  refine Experience.mem_sortedSet.2 (List.mem_map.2 ⟨row, ?_, ?_⟩)
  · exact List.mem_filter.2 ⟨hstored.1, by simp [hstored.2, hcandidate]⟩
  · exact hrowKey.trans (hpkey.trans (resolveCurrent_key hstate))

theorem propositionKeys_of_candidate (h : key ∈ candidatePropositionKeys text ledger tenantId query) :
    key ∈ ledger.propositionKeys tenantId := by
  obtain ⟨row, hrow, rfl⟩ := List.mem_map.1 (Experience.mem_sortedSet.1 h)
  obtain ⟨hrow, hrowOk⟩ := List.mem_filter.1 hrow
  simp only [Bool.and_eq_true, decide_eq_true_eq] at hrowOk
  refine List.mem_append_right _ (List.mem_map_of_mem (List.mem_filter.2 ⟨hrow, ?_⟩))
  simpa using hrowOk.1

/-- The retrieval finds the propositions of the whole ledger that match, as long as no payload has
a boolean in its signatures or a number that is read as another. -/
theorem retrieval_complete (hchecks : PassesChecks P ledger tenantId)
    (hplain : ∀ row ∈ ledger.artifacts, row.tenantId = tenantId →
      SignaturesPlain row.propositionPayload) :
    ∃ result, retrieveCurrentKnowledge P text ledger tenantId query = .ok result ∧
      ∀ key, (∃ m ∈ result.found, m.proposition.propositionKey = key) ↔
        MatchedInLedger P ledger tenantId query key := by
  obtain ⟨inspected, hinspected⟩ := Fallible.mapM_exists_ok
    fun key (hkey : key ∈ candidatePropositionKeys text ledger tenantId query) =>
      inspectCandidate_ok query hchecks (propositionKeys_of_candidate hkey)
  refine ⟨_, Fallible.bind_eq_ok.2 ⟨inspected, hinspected, rfl⟩, fun key => ?_⟩
  simp only [orderedMatches, List.mem_insertionSort, List.mem_filterMap]
  constructor
  · rintro ⟨m, ⟨i, hi, hfound⟩, hm⟩
    obtain ⟨key', hkey', hi⟩ := (Fallible.mem_mapM_ok hinspected).1 hi
    obtain ⟨hkey, hmatched⟩ :=
      inspectCandidate_found (propositionKeys_of_candidate hkey') hi hfound
    rwa [← hm, hkey]
  · intro hmatched
    obtain ⟨i, m, hi, hfound, hm⟩ := inspectCandidate_of_matched hchecks hmatched
    exact ⟨m, ⟨i, (Fallible.mem_mapM_ok hinspected).2
      ⟨key, candidate_of_matched hplain hmatched, hi⟩, hfound⟩, hm⟩

end Ledger

section Readings

def soldProposition : KnowledgeProposition :=
  { sampleProposition with subjectSemanticSignatures := [.organization] }

def soldKnowledge : QualifiedKnowledgeArtifact where
  knowledgeId := "k"
  proposition := soldProposition
  sourceCandidateId := "candidate"
  qualificationId := "q"
  qualifiedThroughEvaluatedAt := some ⟨0, some 0⟩
  algorithm := "knowledge_qualification_v1"

def soldQualification : KnowledgeQualificationResult :=
  { (provisional "q" (some ⟨0, some 0⟩)).qualification with
    proposition := some soldProposition
    status := .qualified
    qualifiedKnowledge := some soldKnowledge
    boundary := by simp }

def epoch : Json := .str "1970-01-01T00:00:00Z"

/-- The payload of the artifact around the document of its proposition. -/
def soldDocument : Json :=
  .obj [schemaVersion, ("knowledge_id", .str "k"), ("proposition", dumpProposition soldProposition),
    ("source_candidate_id", .str "candidate"), ("qualification_id", .str "q"),
    ("qualified_through_evaluated_at", epoch), ("algorithm", .str "knowledge_qualification_v1"),
    ("is_knowledge", .bool true), ("is_policy", .bool false), ("is_persisted", .bool false)]

def countField (key : String) (n : ℚ) : String × Json := (key, .num (.finite n))

def emptyField (key : String) : String × Json := (key, .arr [])

/-- The payload of the qualification. -/
def qualificationDocument : Json :=
  let gate : Json := .obj [("decision", .str "pass"), emptyField "reason_codes"]
  .obj [schemaVersion, ("qualification_id", .str "q"), ("source_candidate_id", .str "candidate"),
    ("proposition", dumpProposition soldProposition), ("status", .str "qualified"),
    ("gates", .obj (["semantic_identity_gate", "intervention_authority_gate",
      "goal_authority_gate", "recurrence_gate", "independent_support_gate", "contradiction_gate",
      "scope_gate", "temporal_provenance_gate"].map fun name => (name, gate))),
    ("evidence_summary", .obj ([("source_candidate_id", .str "candidate"),
        ("recurrence_strength", .str "supported"), countField "independent_support_count" 3] ++
      (["dependent_support_count", "strong_independent_contradiction_count",
        "limited_support_count", "limited_contradiction_count",
        "dependent_contradiction_count", "ambiguous_unit_count"].map fun name =>
          countField name 0) ++
      (["supporting_episode_ids", "contradicting_episode_ids", "neutral_episode_ids",
        "ambiguous_episode_ids", "excluded_episode_ids", "dependent_episode_groups"].map
          emptyField) ++
      [("earliest_evaluated_at", epoch), ("latest_evaluated_at", epoch),
        ("experience_algorithm", .str "experience_intelligence_v1")])),
    emptyField "reason_codes", emptyField "epistemic_limits",
    ("qualified_knowledge", soldDocument), ("algorithm", .str "knowledge_qualification_v1"),
    ("is_policy", .bool false)]

/-- Validation on the two documents. -/
def sampleParsers : PayloadParsers where
  qualification j := if j = qualificationDocument then some soldQualification else none
  artifact j := if j = soldDocument then some soldKnowledge else none

/-- One qualification and its artifact, whose row holds a payload for the proposition. -/
def soldLedger (propositionPayload : Jsonb) : KnowledgeLedger where
  qualifications := [{
    id := "1"
    tenantId := "acme"
    qualificationId := "q"
    propositionKey := "p"
    qualificationStatus := "qualified"
    sourceCandidateId := "candidate"
    evaluationWatermark := some ⟨0, some 0⟩
    qualificationPayload := qualificationDocument
    algorithm := "knowledge_qualification_v1" }]
  artifacts := [{
    id := "2"
    tenantId := "acme"
    qualificationRecordId := "1"
    knowledgeId := "k"
    propositionKey := "p"
    qualificationId := "q"
    sourceCandidateId := "candidate"
    qualifiedThroughEvaluatedAt := some ⟨0, some 0⟩
    propositionPayload := propositionPayload
    artifactPayload := soldDocument
    algorithm := "knowledge_qualification_v1" }]
  qualificationKey := by simp
  artifactKey := by simp
  qualificationIdentity := by simp
  artifactIdentity := by simp
  artifactQualification := by simp
  linked := by simp

/-- The stored document of the proposition, with a version for the signature of its subject. -/
def soldPayload (version : Jsonb) : Jsonb :=
  .obj [("schema_version", .numeric 1 0), ("proposition_key", .str "p"),
    ("subject_semantic_signatures",
      .arr [.obj [("schema_version", version), ("object_type", .str "organization")]]),
    ("intervention_key", .str "call"), ("objective_key", .str "growth"),
    ("kpi_semantic_signatures", .arr []),
    ("relationship_type", .str "associated_with_favorable_outcome"),
    ("scope_conditions", .arr []), ("invalidation_conditions", .arr [])]

def soldQuery : KnowledgeRetrievalQuery where
  subjectSemanticSignatures := [.organization]
  goalSemanticSignature := ⟨some "growth", []⟩
  interventionKeys := []
  relationshipTypes := [.associatedWithFavorableOutcome]
  subjects := by simp
  goal := by simp
  relationships := by simp

def soldState : CurrentKnowledgeState where
  propositionKey := "p"
  lifecycleStatus := .active
  evaluationFrontier := some ⟨0, some 0⟩
  authoritativeQualificationIds := ["q"]
  authoritativeKnowledgeIds := ["k"]
  historicalQualificationCount := 1
  unorderedQualificationIds := []
  reasonCodes := []
  epistemicLimits := []
  lifecycleProjectionId := ⟨"p", some ⟨0, some 0⟩, ["q"], ["k"], .active⟩

section Checks
variable {payload : Jsonb}
  (hstate : resolveCurrentKnowledgeState sampleParsers (soldLedger payload) "acme" "p" =
    .ok soldState)
  (hrecords : authoritativeRecords sampleParsers (soldLedger payload) "acme" soldState =
    .ok ([soldKnowledge], [soldQualification]))

include hstate hrecords

theorem soldLedger_passes : PassesChecks sampleParsers (soldLedger payload) "acme" := by
  intro key hkey
  have hp : key = "p" := by simpa [KnowledgeLedger.propositionKeys, soldLedger] using hkey
  subst hp
  exact ⟨soldState, hstate, fun _ => ⟨_, hrecords, soldProposition, by decide +kernel⟩⟩

theorem soldLedger_matched : MatchedInLedger sampleParsers (soldLedger payload) "acme" soldQuery "p" := by
  obtain ⟨m, hm, -⟩ : ∃ m, matchCurrentKnowledge soldQuery soldState [soldKnowledge] [] =
      .ok (some m) ∧ m.proposition = soldProposition :=
    exists_match (by decide +kernel) (by decide +kernel) (by decide +kernel)
  refine ⟨by simp [KnowledgeLedger.propositionKeys, soldLedger], soldState, [soldKnowledge], m,
    hstate, ?_, hm⟩
  exact authoritativeRecords_ok hrecords

end Checks

/-- Retrieval finds the proposition when the payload is its document, also where the version is
written with decimals that change nothing. -/
theorem retrieval_complete_sold : ∃ result,
    retrieveCurrentKnowledge sampleParsers (fun _ => "") (soldLedger (soldPayload (.numeric 10 1)))
      "acme" soldQuery = .ok result ∧
      ∀ key, (∃ m ∈ result.found, m.proposition.propositionKey = key) ↔
        MatchedInLedger sampleParsers (soldLedger (soldPayload (.numeric 10 1))) "acme" soldQuery
          key := by
  refine retrieval_complete (soldLedger_passes (by decide +kernel) (by decide +kernel)) ?_
  intro row hrow _
  rw [List.mem_singleton.1 hrow]
  unfold SignaturesPlain
  decide +kernel

/-- With this version the row passes its checks and is no candidate. -/
structure Missed (version : Jsonb) : Prop where
  passes : PassesChecks sampleParsers (soldLedger (soldPayload version)) "acme"
  matched : MatchedInLedger sampleParsers (soldLedger (soldPayload version)) "acme" soldQuery "p"
  unfound : ∃ result, retrieveCurrentKnowledge sampleParsers (fun _ => "")
    (soldLedger (soldPayload version)) "acme" soldQuery = .ok result ∧ result.found = []

/-- A version that Python takes for one and JSONB does not. -/
theorem retrieval_misses {version : Jsonb}
    (hstate : resolveCurrentKnowledgeState sampleParsers (soldLedger (soldPayload version)) "acme"
      "p" = .ok soldState)
    (hrecords : authoritativeRecords sampleParsers (soldLedger (soldPayload version)) "acme"
      soldState = .ok ([soldKnowledge], [soldQualification]))
    (hkeys : candidatePropositionKeys (fun _ => "") (soldLedger (soldPayload version)) "acme"
      soldQuery = []) : Missed version := by
  refine ⟨soldLedger_passes hstate hrecords, soldLedger_matched hstate hrecords, ?_⟩
  have hinspected : (candidatePropositionKeys (fun _ => "") (soldLedger (soldPayload version))
      "acme" soldQuery).mapM (inspectCandidate sampleParsers (soldLedger (soldPayload version))
        "acme" soldQuery) = .ok [] := by
    rw [hkeys]
    rfl
  exact ⟨_, Fallible.bind_eq_ok.2 ⟨[], hinspected, rfl⟩, rfl⟩

/-- The versions `true` and 1.00000000000000000001. -/
theorem retrieval_misses_flagged : Missed (.bool true) ∧ Missed (.numeric (10 ^ 20 + 1) 20) :=
  ⟨retrieval_misses (by decide +kernel) (by decide +kernel) (by decide +kernel),
    retrieval_misses (by decide +kernel) (by decide +kernel) (by decide +kernel)⟩

end Readings

end Ajenda.Knowledge
