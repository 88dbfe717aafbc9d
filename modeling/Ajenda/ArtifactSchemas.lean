import Ajenda.JsonValue
import Ajenda.MissionInputBinding

/-!
# Typed artifact schemas

The catalog that says which fields a materialized artifact guarantees, and the validation of
a payload against it. Every error text is the source's; `none` is the `TypeError` of a
membership test on a list or an object.
-/
namespace Ajenda.Deliverables
open JsonValue
open Ajenda.Runtime (strip)

inductive DeliverableFieldKey
  | companyName | website | productDescription | qualificationEvidence | qualificationReasons
  | qualificationDimensions | disqualifiers | recommendedNextAction | ajendaRelevance
  | qualificationScore | researchSummary | incomeOpportunities | supportingEvidence
  | estimatedBusinessImpact | confidence | missingInformation | sources | drafts | socialDrafts
  | assumptions | limitations | sourceUrl | finalUrl | title | extractedObservations
  | observationTimestamp | browserTrace | blockedRequests | observationSatisfied
  | expectedCompany | expectedIndustry | expectedLocation | identityStatus
  | identityEvidenceUrls | identityMatchReasons | identityMatchEvidence | identityGaps
  | revenueAmount | revenueCurrency | revenueSource | goalStatus | goalConfidence
  | kpiEvaluations | progressGaps | evidenceGaps | evaluationExplanations | crmMatches
  | researchNotes | researchSource | researchStatus | contacts | enrichmentMode
  | enrichmentReal | draftArtifactId | draftRecipient | draftSubject | recipientBound
  | crmRecordId | recordOperation | readbackVerified | pipelineStatus | pipelineSource
  | pipelineData
  deriving DecidableEq, Repr

inductive Scope
  | perItem
  | wholeArtifact
  deriving DecidableEq, Repr

structure ArtifactFieldProjection where
  deliverableField : DeliverableFieldKey
  jsonPath : String
  scope : Scope
  requiredWhenItemExists : Bool
  deriving DecidableEq, Repr

structure CompositionArtifactSchema where
  artifactKey : String
  producerJob : String
  fields : List ArtifactFieldProjection
  deriving DecidableEq, Repr

section Catalog
open Scope

def prospectCandidatesSchema : CompositionArtifactSchema where
  artifactKey := "prospect_candidates"
  producerJob := "research.discover_prospects"
  fields := [
    ⟨.companyName, "$[].company", perItem, false⟩,
    ⟨.website, "$[].website", perItem, true⟩,
    ⟨.productDescription, "$[].product_description", perItem, true⟩,
    ⟨.researchSummary, "$[].research_summary", perItem, true⟩,
    ⟨.sources, "$[].sources", perItem, true⟩,
    ⟨.researchSource, "$[].source", perItem, false⟩]

def observedContactsSchema : CompositionArtifactSchema where
  artifactKey := "observed_contacts"
  producerJob := "research.observe_sources"
  fields := [⟨.sources, "$[].sources", perItem, true⟩]

def verifiedProspectCandidatesSchema : CompositionArtifactSchema where
  artifactKey := "verified_prospect_candidates"
  producerJob := "research.observe_sources"
  fields := [
    ⟨.companyName, "$[].company", perItem, false⟩,
    ⟨.website, "$[].website", perItem, true⟩,
    ⟨.productDescription, "$[].product_description", perItem, true⟩,
    ⟨.researchSummary, "$[].research_summary", perItem, true⟩,
    ⟨.sources, "$[].sources", perItem, true⟩,
    ⟨.researchSource, "$[].source", perItem, false⟩]

def publicIdentityObservationSchema : CompositionArtifactSchema where
  artifactKey := "public_identity_observation"
  producerJob := "research.verify_public_identity"
  fields := [
    ⟨.expectedCompany, "$.expected_company", wholeArtifact, true⟩,
    ⟨.expectedIndustry, "$.expected_industry", wholeArtifact, true⟩,
    ⟨.expectedLocation, "$.expected_location", wholeArtifact, true⟩,
    ⟨.identityStatus, "$.identity_status", wholeArtifact, true⟩,
    ⟨.identityEvidenceUrls, "$.identity_evidence_urls", wholeArtifact, true⟩,
    ⟨.identityMatchReasons, "$.identity_match_reasons", wholeArtifact, true⟩,
    ⟨.identityMatchEvidence, "$.identity_match_evidence", wholeArtifact, false⟩,
    ⟨.identityGaps, "$.identity_gaps", wholeArtifact, true⟩,
    ⟨.sourceUrl, "$.source_url", wholeArtifact, true⟩,
    ⟨.finalUrl, "$.final_url", wholeArtifact, true⟩,
    ⟨.title, "$.title", wholeArtifact, true⟩]

def qualifiedProspectsSchema : CompositionArtifactSchema where
  artifactKey := "qualified_prospects"
  producerJob := "sales.qualify_prospects"
  fields := [
    ⟨.companyName, "$[].company", perItem, true⟩,
    ⟨.website, "$[].website", perItem, false⟩,
    ⟨.qualificationScore, "$[].score", perItem, true⟩,
    ⟨.qualificationReasons, "$[].reasons", perItem, true⟩,
    ⟨.qualificationDimensions, "$[].qualification_dimensions", perItem, false⟩,
    ⟨.qualificationEvidence, "$[].qualification_evidence", perItem, true⟩,
    ⟨.supportingEvidence, "$[].qualification_evidence", perItem, true⟩,
    ⟨.disqualifiers, "$[].disqualifiers", perItem, false⟩,
    ⟨.recommendedNextAction, "$[].recommended_next_action", perItem, false⟩,
    ⟨.ajendaRelevance, "$[].ajenda_relevance", perItem, true⟩]

def revenueRecordsSchema : CompositionArtifactSchema where
  artifactKey := "revenue_records"
  producerJob := "accounting.read_revenue"
  fields := [
    ⟨.revenueAmount, "$[].amount", perItem, true⟩,
    ⟨.revenueCurrency, "$[].currency", perItem, true⟩,
    ⟨.revenueSource, "$[].source", perItem, true⟩]

def businessReviewReportSchema : CompositionArtifactSchema where
  artifactKey := "business_review_report"
  producerJob := "business.review_income"
  fields := [
    ⟨.researchSummary, "$.income_opportunities", wholeArtifact, true⟩,
    ⟨.incomeOpportunities, "$.income_opportunities", wholeArtifact, true⟩,
    ⟨.supportingEvidence, "$.supporting_evidence", wholeArtifact, true⟩,
    ⟨.estimatedBusinessImpact, "$.estimated_business_impact", wholeArtifact, true⟩,
    ⟨.confidence, "$.confidence", wholeArtifact, true⟩,
    ⟨.assumptions, "$.assumptions", wholeArtifact, true⟩,
    ⟨.limitations, "$.evidence_gaps", wholeArtifact, true⟩,
    ⟨.missingInformation, "$.evidence_gaps", wholeArtifact, true⟩]

def researchReportSchema : CompositionArtifactSchema where
  artifactKey := "research_report"
  producerJob := "research.synthesize_report"
  fields := [
    ⟨.sources, "$.source_urls", wholeArtifact, true⟩,
    ⟨.evidenceGaps, "$.evidence_gaps", wholeArtifact, true⟩,
    ⟨.researchStatus, "$.result_semantics", wholeArtifact, true⟩]

def webPageObservationSchema : CompositionArtifactSchema where
  artifactKey := "web_page_observation"
  producerJob := "research.observe_web_page"
  fields := [
    ⟨.sourceUrl, "$.source_url", wholeArtifact, true⟩,
    ⟨.finalUrl, "$.final_url", wholeArtifact, true⟩,
    ⟨.title, "$.title", wholeArtifact, true⟩,
    ⟨.extractedObservations, "$.extracted_observations", wholeArtifact, true⟩,
    ⟨.observationTimestamp, "$.observation_timestamp", wholeArtifact, true⟩,
    ⟨.browserTrace, "$.browser_trace", wholeArtifact, true⟩,
    ⟨.blockedRequests, "$.blocked_requests", wholeArtifact, true⟩,
    ⟨.observationSatisfied, "$.observation_satisfied", wholeArtifact, true⟩]

def goalProgressEvaluationSchema : CompositionArtifactSchema where
  artifactKey := "goal_progress_evaluation"
  producerJob := "analysis.evaluate_goal_progress"
  fields := [
    ⟨.goalStatus, "$.status", wholeArtifact, true⟩,
    ⟨.confidence, "$.confidence", wholeArtifact, true⟩,
    ⟨.goalConfidence, "$.confidence", wholeArtifact, true⟩,
    ⟨.kpiEvaluations, "$.kpi_evaluations", wholeArtifact, true⟩,
    ⟨.progressGaps, "$.progress_gaps", wholeArtifact, true⟩,
    ⟨.evidenceGaps, "$.evidence_gaps", wholeArtifact, true⟩,
    ⟨.evaluationExplanations, "$.explanations", wholeArtifact, true⟩]

def researchedProspectsSchema : CompositionArtifactSchema where
  artifactKey := "researched_prospects"
  producerJob := "sales.research_context"
  fields := [
    ⟨.crmMatches, "$[].crm_matches", perItem, true⟩,
    ⟨.researchNotes, "$[].research_notes", perItem, true⟩,
    ⟨.researchSource, "$[].research_source", perItem, true⟩,
    ⟨.researchStatus, "$[].research_real", perItem, true⟩,
    ⟨.companyName, "$[].company", perItem, false⟩,
    ⟨.website, "$[].domain", perItem, false⟩]

def enrichedProspectsSchema : CompositionArtifactSchema where
  artifactKey := "enriched_prospects"
  producerJob := "gtm.enrich_contacts"
  fields := [
    ⟨.companyName, "$[].company", perItem, true⟩,
    ⟨.contacts, "$[].contacts", perItem, true⟩,
    ⟨.enrichmentMode, "$[].enrichment_mode", perItem, true⟩,
    ⟨.enrichmentReal, "$[].enrichment_real", perItem, true⟩,
    ⟨.website, "$[].domain", perItem, false⟩]

def introductionDraftsSchema : CompositionArtifactSchema where
  artifactKey := "introduction_drafts"
  producerJob := "email.prepare_outreach"
  fields := [
    ⟨.draftArtifactId, "$[].artifact_id", perItem, false⟩,
    ⟨.companyName, "$[].company", perItem, false⟩,
    ⟨.draftRecipient, "$[].recipient", perItem, false⟩,
    ⟨.draftSubject, "$[].subject", perItem, false⟩,
    ⟨.recipientBound, "$[].recipient_bound", perItem, false⟩]

def socialDraftsSchema : CompositionArtifactSchema where
  artifactKey := "social_drafts"
  producerJob := "social.prepare_drafts"
  fields := [⟨.socialDrafts, "$[].content", perItem, true⟩]

def internalCrmRecordsSchema : CompositionArtifactSchema where
  artifactKey := "internal_crm_records"
  producerJob := "crm.internal_persistence"
  fields := [
    ⟨.crmRecordId, "$[].id", perItem, true⟩,
    ⟨.recordOperation, "$[].operation", perItem, true⟩]

def crmRecordsSchema : CompositionArtifactSchema where
  artifactKey := "crm_records"
  producerJob := "crm.read_records"
  fields := [
    ⟨.crmRecordId, "$[].id", perItem, true⟩,
    ⟨.companyName, "$[].company", perItem, false⟩,
    ⟨.researchSource, "$[].source", perItem, true⟩]

def pipelineRecordsSchema : CompositionArtifactSchema where
  artifactKey := "pipeline_records"
  producerJob := "crm.pipeline_maintenance"
  fields := [
    ⟨.crmRecordId, "$[].id", perItem, true⟩,
    ⟨.pipelineStatus, "$[].status", perItem, true⟩,
    ⟨.pipelineSource, "$[].source", perItem, true⟩,
    ⟨.pipelineData, "$[].data", perItem, true⟩]

def followUpTasksSchema : CompositionArtifactSchema where
  artifactKey := "follow_up_tasks"
  producerJob := "crm.create_internal_followup_tasks"
  fields := [
    ⟨.crmRecordId, "$[].id", perItem, true⟩,
    ⟨.pipelineStatus, "$[].status", perItem, true⟩,
    ⟨.readbackVerified, "$[].readback_verified", perItem, true⟩]

/-- `ARTIFACT_SCHEMAS_BY_KEY`, in its order. -/
def artifactSchemas : List CompositionArtifactSchema :=
  [prospectCandidatesSchema, observedContactsSchema, verifiedProspectCandidatesSchema,
    publicIdentityObservationSchema, qualifiedProspectsSchema, revenueRecordsSchema,
    businessReviewReportSchema, researchReportSchema, webPageObservationSchema,
    goalProgressEvaluationSchema, researchedProspectsSchema, enrichedProspectsSchema,
    introductionDraftsSchema, socialDraftsSchema, internalCrmRecordsSchema, crmRecordsSchema,
    pipelineRecordsSchema, followUpTasksSchema]

def artifactSchemaByKey (key : String) : Option CompositionArtifactSchema :=
  artifactSchemas.find? (·.artifactKey = key)

end Catalog

/-- What follows `start` in a path that begins with it. -/
def restOf (start path : String) : Option String :=
  if start.toList.isPrefixOf path.toList then
    some (String.ofList (path.toList.drop start.toList.length))
  else none

/-- The column of a per-item path. -/
def pathField (jsonPath : String) : Option String :=
  match restOf "$[]." jsonPath with
  | some rest => if strip rest = "" then none else some (strip rest)
  | none => none

/-- The property of a whole-artifact path. -/
def pathProperty (jsonPath : String) : Option String := (restOf "$." jsonPath).map strip

namespace CompositionArtifactSchema

def wholeFields (schema : CompositionArtifactSchema) : List ArtifactFieldProjection :=
  schema.fields.filter (·.scope = .wholeArtifact)

def perItemFields (schema : CompositionArtifactSchema) : List ArtifactFieldProjection :=
  schema.fields.filter (·.scope = .perItem)

end CompositionArtifactSchema

section Validation
-- The messages of pydantic's errors on a research report.
variable (reportErrors : Fields → List String)

def wholeArtifactErrors (schema : CompositionArtifactSchema) (payload : Fields) : List String :=
  (if schema.artifactKey = "research_report" then
    (reportErrors payload).map ("research report " ++ ·) else []) ++
  (if schema.artifactKey = "web_page_observation" ∧
      payload.get "observation_satisfied" ≠ some (.bool true) then
    ["web page observation requirements were not satisfied"] else []) ++
  schema.wholeFields.flatMap fun field =>
    match pathProperty field.jsonPath with
    | none => ["unsupported artifact schema path: " ++ field.jsonPath]
    | some property =>
      if property = "" then ["unsupported artifact schema path: " ++ field.jsonPath]
      else if field.requiredWhenItemExists ∧ payload.get property ∈
          [none, some .null, some (.str "")] then
        ["artifact missing required field: " ++ property]
      else []

def publicProspectErrors (item : Fields) (index : ℕ) : List String :=
  if item.get "source" ≠ some (.str "public_search") then []
  else
    (if item.get "real" ≠ some (.bool true) then
      [s!"item {index} public prospect identity is not verified"] else []) ++
    (if item.get "identity_status" ≠ some (.str "verified") then
      [s!"item {index} public prospect identity_status must be verified"] else [])

def enrichmentErrors (item : Fields) (index : ℕ) : Option (List String) :=
  if item.get "enrichment_real" = some (.bool true) then
    match item.get "enrichment_mode" with
    | some (.arr _) | some (.obj _) => none -- a list or an object has no hash
    | some (.str "local_simulated") =>
      some [s!"item {index} simulated enrichment cannot be marked real",
        s!"item {index} enrichment mode contradicts enrichment_real"]
    | some (.str "unresolved") => some [s!"item {index} enrichment mode contradicts enrichment_real"]
    | _ => some []
  else some []

/-- `not str(value or "").strip()`. -/
def blank : Option Json → Bool
  | some (.str text) => strip text = ""
  | some value => !value.truthy
  | none => true

def itemErrors (schema : CompositionArtifactSchema) (item : Json) (index : ℕ) :
    Option (List String) :=
  match item with
  | .obj fields => do
    let enrichment ←
      if schema.artifactKey = "enriched_prospects" then enrichmentErrors fields index else some []
    return publicProspectErrors fields index ++
      (if schema.artifactKey = "researched_prospects" ∧
          Fields.get fields "research_real" ≠ some (.bool true) then
        [s!"item {index} research result is not marked real"] else []) ++
      enrichment ++
      (if schema.artifactKey = "verified_prospect_candidates" ∧ blank (Fields.get fields "company") then
        [s!"item {index} missing required field: company"] else []) ++
      schema.perItemFields.flatMap fun field =>
        match pathField field.jsonPath with
        | none => ["unsupported artifact schema path: " ++ field.jsonPath]
        | some column =>
          if field.requiredWhenItemExists ∧ Fields.get fields column ∈ [none, some .null] then
            [s!"item {index} missing required field: {column}"]
          else []
  | _ => some [s!"item {index} must be an object"]

def validateArtifactPayload (schema : CompositionArtifactSchema) (payload : Json) :
    Option (List String) :=
  let whole : Option (List String) :=
    if schema.wholeFields = [] then some []
    else match payload with
      | .obj fields => some (wholeArtifactErrors reportErrors schema fields)
      | _ => none
  match whole with
  | none => some ["typed whole-artifact payload must be an object"]
  | some errors =>
    if schema.perItemFields = [] then some errors
    else match payload with
      | .arr [] => some ["typed per-item artifact payload must contain at least one item"]
      | .arr items =>
        (items.zipIdx.mapM fun entry => itemErrors schema entry.1 entry.2).map
          fun found => errors ++ found.flatten
      | _ => some ["typed per-item artifact payload must be a list"]

end Validation

section CatalogForm
variable {key : String} {schema : CompositionArtifactSchema} {field : ArtifactFieldProjection}

theorem mem_of_artifactSchemaByKey (h : artifactSchemaByKey key = some schema) :
    schema ∈ artifactSchemas ∧ schema.artifactKey = key := by
  refine ⟨List.mem_of_find?_eq_some h, ?_⟩
  simpa using List.find?_some h

theorem artifactSchemaByKey_of_mem (h : schema ∈ artifactSchemas) :
    artifactSchemaByKey schema.artifactKey = some schema := by
  have hall : ∀ schema ∈ artifactSchemas,
      artifactSchemaByKey schema.artifactKey = some schema := by
    decide +kernel
  exact hall schema h

/-- A schema projects a deliverable field once. -/
theorem filter_deliverableField (h : schema ∈ artifactSchemas) (hfield : field ∈ schema.fields) :
    schema.fields.filter (·.deliverableField = field.deliverableField) = [field] := by
  have hall : ∀ schema ∈ artifactSchemas, ∀ field ∈ schema.fields,
      schema.fields.filter (·.deliverableField = field.deliverableField) = [field] := by
    decide +kernel
  exact hall schema h field hfield

/-- Every per-item path names a column. -/
theorem pathField_isSome (h : schema ∈ artifactSchemas) (hfield : field ∈ schema.fields)
    (hscope : field.scope = .perItem) : (pathField field.jsonPath).isSome := by
  have hall : ∀ schema ∈ artifactSchemas, ∀ field ∈ schema.fields, field.scope = .perItem →
      (pathField field.jsonPath).isSome := by
    decide +kernel
  exact hall schema h field hfield hscope

end CatalogForm

end Ajenda.Deliverables
