import Ajenda.ArtifactSchemas
import Mathlib.Data.List.Sort

/-!
# Projecting a deliverable request

Requested fields are bound to the artifacts that a vertical's jobs declare. Typed schemas come
first, then artifacts that are a field as a whole, then candidates.
-/
namespace Ajenda.Deliverables

structure BusinessJob where
  jobKey : String
  producedOutputs : List String
  deriving DecidableEq, Repr

def businessJobCatalog : List BusinessJob := [
  ⟨"research.discover_prospects", ["prospect_candidates"]⟩,
  ⟨"research.verify_public_candidates", ["verified_prospect_candidates"]⟩,
  ⟨"research.observe_sources", ["verified_prospect_candidates", "observed_contacts"]⟩,
  ⟨"research.observe_web_page", ["web_page_observation"]⟩,
  ⟨"research.verify_public_identity", ["public_identity_observation"]⟩,
  ⟨"research.synthesize_report", ["research_report"]⟩,
  ⟨"social.prepare_drafts", ["social_drafts"]⟩,
  ⟨"operations.verify_runtime_controls", ["runtime_control_verification_package"]⟩,
  ⟨"analysis.evaluate_goal_progress", ["goal_progress_evaluation"]⟩,
  ⟨"intelligence.retrieve_knowledge", ["retrieved_knowledge"]⟩,
  ⟨"intelligence.retrieve_business_profile", ["business_profile_facts"]⟩,
  ⟨"business.review_income", ["business_review_report"]⟩,
  ⟨"business.review_need", ["recommendation"]⟩,
  ⟨"business.review_need_with_knowledge", ["recommendation"]⟩,
  ⟨"intelligence.advise_next", ["recommendation"]⟩,
  ⟨"sales.research_context", ["researched_prospects"]⟩,
  ⟨"sales.qualify_prospects", ["qualified_prospects"]⟩,
  ⟨"gtm.enrich_contacts", ["enriched_prospects"]⟩,
  ⟨"email.prepare_outreach", ["introduction_drafts"]⟩,
  ⟨"email.deliver_outreach", ["sent_messages"]⟩,
  ⟨"email.read_messages", ["email_messages"]⟩,
  ⟨"crm.read_records", ["crm_records"]⟩,
  ⟨"crm.query_salesforce", ["salesforce_records"]⟩,
  ⟨"crm.internal_persistence", ["internal_crm_records"]⟩,
  ⟨"crm.create_internal_followup_tasks", ["follow_up_tasks"]⟩,
  ⟨"crm.pipeline_maintenance", ["pipeline_records"]⟩,
  ⟨"ops.calendar_briefing", ["calendar_events"]⟩,
  ⟨"ops.linkedin_profile_read", ["linkedin_profile"]⟩,
  ⟨"ops.github_repo_read", ["github_repo_metadata"]⟩,
  ⟨"ops.google_contacts_read", ["contact_records"]⟩,
  ⟨"gtm.publish_content", ["published_content"]⟩,
  ⟨"accounting.read_revenue", ["revenue_records"]⟩,
  ⟨"accounting.prepare_reconciliation", ["reconciliation_package"]⟩,
  ⟨"accounting.prepare_invoice_drafts", ["invoice_drafts"]⟩]

def producedOutputs (jobKey : String) : List String :=
  ((businessJobCatalog.find? (·.jobKey = jobKey)).map (·.producedOutputs)).getD []

/-- The job keys of a know-how contract, by stage. The contract's own validation leaves only jobs
of the catalog, each in one stage. -/
structure VerticalKnowHowContract where
  stages : List (List String)
  jobs_known : ∀ jobKey ∈ stages.flatten, jobKey ∈ businessJobCatalog.map (·.jobKey)
  jobs_nodup : stages.flatten.Nodup

/-- `REVOPS_V1_KNOW_HOW`. -/
def revopsV1KnowHow : VerticalKnowHowContract where
  stages := [
    ["research.discover_prospects", "research.verify_public_candidates",
      "research.observe_sources", "sales.research_context"],
    ["intelligence.retrieve_knowledge", "intelligence.advise_next"],
    ["sales.qualify_prospects", "gtm.enrich_contacts"],
    ["email.prepare_outreach"],
    ["crm.read_records"],
    ["email.deliver_outreach"],
    ["crm.pipeline_maintenance"],
    ["crm.internal_persistence"],
    ["crm.create_internal_followup_tasks"]]
  jobs_known := by decide +kernel
  jobs_nodup := by decide +kernel

structure DeliverableRequest where
  fields : List DeliverableFieldKey
  unresolvedItems : List String
  fields_bound : fields.length ≤ 30
  unresolvedItems_bound : unresolvedItems.length ≤ 30

inductive DeliverableBindingStatus
  | bound
  | candidate
  | unresolved
  deriving DecidableEq, Repr

inductive DeliverableBindingBasis
  | typedArtifactField
  | wholeArtifactIdentity
  | candidateArtifact
  | noDeclaredArtifact
  deriving DecidableEq, Repr

structure DeliverableFieldBinding where
  fieldKey : DeliverableFieldKey
  status : DeliverableBindingStatus
  basis : DeliverableBindingBasis
  artifactKeys : List String
  producerJobs : List String
  deriving DecidableEq, Repr

structure DeliverableProjection where
  bindings : List DeliverableFieldBinding
  requestUnresolvedItems : List String
  minimumRows : ℤ
  minimumRowsByArtifact : List (String × ℤ)
  deriving DecidableEq, Repr

/-- `_WHOLE_ARTIFACT_BINDINGS`. -/
def wholeArtifactBindings : DeliverableFieldKey → List String
  | .drafts => ["introduction_drafts"]
  | .socialDrafts => ["social_drafts"]
  | .sourceUrl | .finalUrl | .title => ["web_page_observation", "public_identity_observation"]
  | .extractedObservations | .observationTimestamp | .browserTrace | .blockedRequests
  | .observationSatisfied => ["web_page_observation"]
  | .expectedCompany | .expectedIndustry | .expectedLocation | .identityStatus
  | .identityEvidenceUrls | .identityMatchReasons | .identityMatchEvidence | .identityGaps =>
    ["public_identity_observation"]
  | _ => []

/-- `_CANDIDATE_ARTIFACTS`. -/
def candidateArtifacts : DeliverableFieldKey → List String
  | .companyName => ["verified_prospect_candidates", "prospect_candidates", "observed_contacts",
      "qualified_prospects", "enriched_prospects"]
  | .website => ["verified_prospect_candidates", "prospect_candidates", "researched_prospects",
      "enriched_prospects"]
  | .productDescription => ["researched_prospects"]
  | .qualificationEvidence | .qualificationReasons | .qualificationScore => ["qualified_prospects"]
  | .ajendaRelevance => ["researched_prospects", "recommendation"]
  | .researchSummary => ["verified_prospect_candidates", "prospect_candidates",
      "researched_prospects"]
  | .sources => ["verified_prospect_candidates", "observed_contacts", "researched_prospects"]
  | _ => []

/-- The jobs that produce an artifact, in the contract's order; an artifact without any is no
key of the source's dictionary. -/
def declaredArtifactProducers (contract : VerticalKnowHowContract) (artifactKey : String) :
    List String :=
  contract.stages.flatten.flatMap fun jobKey =>
    ((producedOutputs jobKey).filter (· = artifactKey)).map fun _ => jobKey

/-- Verified companies are preferred to raw discovery. -/
def priority (artifactKey : String) : ℕ :=
  if artifactKey = "verified_prospect_candidates" then 0
  else if artifactKey = "prospect_candidates" then 1
  else 2

section Bindings
variable (producers : String → List String) (fieldKey : DeliverableFieldKey)

def typedSchemas : List CompositionArtifactSchema :=
  artifactSchemas.filter fun schema => schema.producerJob ∈ producers schema.artifactKey ∧
    schema.fields.any (·.deliverableField = fieldKey)

/-- `_typed_binding`. -/
def typedBinding : Option DeliverableFieldBinding :=
  let ordered := (typedSchemas producers fieldKey).insertionSort
    fun a b => priority a.artifactKey ≤ priority b.artifactKey
  if ordered = [] then none
  else some {
    fieldKey := fieldKey
    status := .bound
    basis := .typedArtifactField
    artifactKeys := ordered.map (·.artifactKey)
    producerJobs := (ordered.map (·.producerJob)).eraseDups }

/-- `_binding_for_field`. -/
def bindingForField : DeliverableFieldBinding :=
  match typedBinding producers fieldKey with
  | some typed => typed
  | none =>
    let declared (keys : List String) := keys.filter fun key => producers key ≠ []
    let jobs (keys : List String) := (keys.flatMap producers).eraseDups
    let whole := declared (wholeArtifactBindings fieldKey)
    let candidates := declared (candidateArtifacts fieldKey)
    if whole ≠ [] then ⟨fieldKey, .bound, .wholeArtifactIdentity, whole, jobs whole⟩
    else if candidates ≠ [] then
      ⟨fieldKey, .candidate, .candidateArtifact, candidates, jobs candidates⟩
    else ⟨fieldKey, .unresolved, .noDeclaredArtifact, [], []⟩

end Bindings

/-- `project_deliverable_request`; `none` is the validation error of a quantity out of range. -/
def projectDeliverableRequest (request : DeliverableRequest) (knowHow : VerticalKnowHowContract)
    (minimumRows : ℤ) (minimumRowsByArtifact : List (String × ℤ)) : Option DeliverableProjection :=
  if 0 ≤ minimumRows ∧ minimumRows ≤ 1000 then some {
    bindings := request.fields.map (bindingForField (declaredArtifactProducers knowHow))
    requestUnresolvedItems := request.unresolvedItems
    minimumRows := minimumRows
    minimumRowsByArtifact := minimumRowsByArtifact.filter (0 < ·.2) }
  else none

section Typed
variable {producers : String → List String} {fieldKey : DeliverableFieldKey}
  {binding : DeliverableFieldBinding}

/-- A typed binding is bound, and each of its artifacts has a schema that projects the field. -/
structure Typed (binding : DeliverableFieldBinding) : Prop where
  bound : binding.status = .bound
  projected : ∀ key ∈ binding.artifactKeys, ∃ schema ∈ artifactSchemas, schema.artifactKey = key ∧
    ∃ field ∈ schema.fields, field.deliverableField = binding.fieldKey

theorem typedBinding_typed (h : typedBinding producers fieldKey = some binding) :
    Typed binding := by
  rw [typedBinding] at h
  split_ifs at h
  obtain rfl := Option.some.inj h
  refine ⟨rfl, fun key hkey => ?_⟩
  obtain ⟨schema, hschema, hname⟩ := List.mem_map.1 hkey
  rw [List.mem_insertionSort] at hschema
  obtain ⟨hcatalog, hprojects⟩ := List.mem_filter.1 hschema
  simp only [decide_eq_true_eq, List.any_eq_true] at hprojects
  exact ⟨schema, hcatalog, hname, hprojects.2⟩

theorem bindingForField_typed
    (h : (bindingForField producers fieldKey).basis = .typedArtifactField) :
    Typed (bindingForField producers fieldKey) := by
  rw [bindingForField] at h ⊢
  split at h
  next typed htyped => exact typedBinding_typed htyped
  next =>
    dsimp only at h
    split_ifs at h

theorem projection_typed {request : DeliverableRequest} {knowHow : VerticalKnowHowContract}
    {minimumRows : ℤ} {minimumRowsByArtifact : List (String × ℤ)}
    {projection : DeliverableProjection}
    (h : projectDeliverableRequest request knowHow minimumRows minimumRowsByArtifact =
      some projection)
    (hbinding : binding ∈ projection.bindings) (hbasis : binding.basis = .typedArtifactField) :
    Typed binding := by
  rw [projectDeliverableRequest] at h
  split_ifs at h
  obtain rfl := Option.some.inj h
  obtain ⟨fieldKey, -, rfl⟩ := List.mem_map.1 hbinding
  exact bindingForField_typed hbasis

end Typed

end Ajenda.Deliverables
