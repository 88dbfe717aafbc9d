import Ajenda.DeliverableProjection

/-!
# Completion of a deliverable

Requested fields against the artifacts that were materialized. Validity, the number of rows and
the presence of the field are each decided over all the artifacts of a binding that are present.
-/
namespace Ajenda.Deliverables
open JsonValue

structure MaterializedArtifact where
  artifactKey : String
  payload : Json
  deriving DecidableEq, Repr

structure ArtifactValidation where
  artifactKey : String
  schemaKnown : Bool
  valid : Bool
  errors : List String
  deriving DecidableEq, Repr

inductive FieldCompletionStatus
  | satisfied
  | missingArtifact
  | invalidArtifact
  | insufficientRows
  | unproven
  deriving DecidableEq, Repr

structure DeliverableFieldCompletion where
  fieldKey : DeliverableFieldKey
  status : FieldCompletionStatus
  artifactKeys : List String
  observedRows : ℕ
  requiredRows : ℤ
  deriving DecidableEq, Repr

structure DeliverableCompletion where
  fields : List DeliverableFieldCompletion
  unresolvedRequestItems : List String
  deriving DecidableEq, Repr

def DeliverableCompletion.complete (completion : DeliverableCompletion) : Bool :=
  completion.fields ≠ [] ∧ completion.unresolvedRequestItems = [] ∧
    completion.fields.all (·.status = .satisfied)

def artifactHasValue : Json → Bool
  | .null => false
  | .str text => text ≠ ""
  | .arr items => items ≠ []
  | .obj fields => fields ≠ []
  | _ => true

def isList : Option Json → Bool
  | some (.arr _) => true
  | _ => false

/-- A whole-artifact field; for some fields an empty list is an observation too. -/
def wholeFieldHasValue (payload : Fields) (whole : List ArtifactFieldProjection)
    (fieldKey : DeliverableFieldKey) : Bool :=
  if fieldKey = .blockedRequests then isList (payload.get "blocked_requests")
  else if fieldKey = .identityGaps then isList (payload.get "identity_gaps")
  else if fieldKey ∈ [.kpiEvaluations, .progressGaps, .evidenceGaps] then
    match whole.findSome? fun field => pathProperty field.jsonPath with
    | some key => isList (payload.get key)
    | none => false
  else whole.all fun field =>
    match pathProperty field.jsonPath with
    | some key => (payload.get key).any (·.truthy)
    | none => false

/-- A row's cell; an empty list of disqualifiers says that none was found. -/
def cellHasValue (fieldKey : DeliverableFieldKey) (column : String) : Json → Bool
  | .obj row =>
    match Fields.get row column with
    | some value => artifactHasValue value || (fieldKey = .disqualifiers && isList (some value))
    | none => false
  | _ => false

/-- `_typed_field_has_value`. -/
def typedFieldHasValue (artifact : MaterializedArtifact) (fieldKey : DeliverableFieldKey) : Bool :=
  match artifactSchemaByKey artifact.artifactKey with
  | none => false
  | some schema =>
    let matching := schema.fields.filter (·.deliverableField = fieldKey)
    let whole := matching.filter (·.scope = .wholeArtifact)
    if matching = [] then false
    else if whole ≠ [] then
      match artifact.payload with
      | .obj payload => wholeFieldHasValue payload whole fieldKey
      | _ => false
    else match artifact.payload with
      | .arr items => items ≠ [] && matching.all fun field =>
          match pathField field.jsonPath with
          | some column => items.all (cellHasValue fieldKey column)
          | none => false
      | _ => false

/-- `artifacts_by_key`: of several artifacts under a key the last. -/
def artifactsByKey (artifacts : List MaterializedArtifact) (key : String) :
    Option MaterializedArtifact :=
  (artifacts.filter (·.artifactKey = key)).getLast?

/-- The values of `artifacts_by_key`. -/
def keptArtifacts (artifacts : List MaterializedArtifact) : List MaterializedArtifact :=
  (artifacts.map (·.artifactKey)).eraseDups.filterMap (artifactsByKey artifacts)

def isWholeArtifactBinding (binding : DeliverableFieldBinding) : Bool :=
  binding.artifactKeys.any fun key =>
    ((artifactSchemaByKey key).map (·.fields)).getD [] |>.any fun field =>
      field.deliverableField = binding.fieldKey ∧ field.scope = .wholeArtifact

/-- The minimum declared for one artifact. -/
def declaredRows (projection : DeliverableProjection) (key : String) : ℤ :=
  (projection.minimumRowsByArtifact.lookup key).getD projection.minimumRows

/-- The largest minimum of a binding's artifacts. -/
def requiredRows (projection : DeliverableProjection) (binding : DeliverableFieldBinding) : ℤ :=
  if isWholeArtifactBinding binding then 0
  else (binding.artifactKeys.map (declaredRows projection)).max?.getD projection.minimumRows

def rowCount (artifact : MaterializedArtifact) : Option ℕ :=
  match artifact.payload with
  | .arr items => some items.length
  | _ => none

def observedRows (present : List MaterializedArtifact) : ℕ :=
  (present.filterMap rowCount).max?.getD 0

def presentArtifacts (artifacts : List MaterializedArtifact) (binding : DeliverableFieldBinding) :
    List MaterializedArtifact :=
  binding.artifactKeys.filterMap (artifactsByKey artifacts)

section Evaluation
variable (reportErrors : Fields → List String)

def validateMaterializedArtifact (artifact : MaterializedArtifact) : Option ArtifactValidation :=
  match artifactSchemaByKey artifact.artifactKey with
  | none => some ⟨artifact.artifactKey, false, false, ["no typed artifact schema is declared"]⟩
  | some schema => (validateArtifactPayload reportErrors schema artifact.payload).map
      fun errors => ⟨artifact.artifactKey, true, errors = [], errors⟩

def valid (artifact : MaterializedArtifact) : Bool :=
  (validateMaterializedArtifact reportErrors artifact).any (·.valid)

def fieldStatus (projection : DeliverableProjection) (artifacts : List MaterializedArtifact)
    (binding : DeliverableFieldBinding) : FieldCompletionStatus :=
  let present := presentArtifacts artifacts binding
  let required := requiredRows projection binding
  if binding.status ≠ .bound then .unproven
  else match binding.basis with
    | .wholeArtifactIdentity =>
      if present.any (artifactHasValue ·.payload) then .satisfied else .missingArtifact
    | .typedArtifactField =>
      if present = [] then .missingArtifact
      else if present.any (!valid reportErrors ·) then .invalidArtifact
      else if required ≠ 0 ∧ (observedRows present : ℤ) < required then .insufficientRows
      else if present.any (typedFieldHasValue · binding.fieldKey) then .satisfied
      else .invalidArtifact
    | _ => .unproven

def fieldCompletion (projection : DeliverableProjection) (artifacts : List MaterializedArtifact)
    (binding : DeliverableFieldBinding) : DeliverableFieldCompletion where
  fieldKey := binding.fieldKey
  status := fieldStatus reportErrors projection artifacts binding
  artifactKeys := binding.artifactKeys
  observedRows :=
    if binding.basis = .typedArtifactField then observedRows (presentArtifacts artifacts binding)
    else 0
  requiredRows := requiredRows projection binding

/-- Every artifact is validated without a `TypeError`. -/
def Checkable (artifacts : List MaterializedArtifact) : Prop :=
  ∀ artifact ∈ keptArtifacts artifacts,
    (validateMaterializedArtifact reportErrors artifact).isSome

instance (artifacts : List MaterializedArtifact) : Decidable (Checkable reportErrors artifacts) :=
  inferInstanceAs (Decidable (∀ artifact ∈ keptArtifacts artifacts, _))

def evaluateDeliverableCompletion (projection : DeliverableProjection)
    (artifacts : List MaterializedArtifact) : Option DeliverableCompletion :=
  if Checkable reportErrors artifacts then some {
    fields := projection.bindings.map (fieldCompletion reportErrors projection artifacts)
    unresolvedRequestItems := projection.requestUnresolvedItems }
  else none

end Evaluation

section Kept
variable {artifacts reordered : List MaterializedArtifact} {artifact : MaterializedArtifact}
  {key : String}

theorem artifactKey_of_artifactsByKey (h : artifactsByKey artifacts key = some artifact) :
    artifact.artifactKey = key := by
  have hmem := List.mem_of_getLast? h
  simpa using (List.mem_filter.1 hmem).2

theorem mem_keptArtifacts :
    artifact ∈ keptArtifacts artifacts ↔ ∃ key, artifactsByKey artifacts key = some artifact := by
  rw [keptArtifacts, List.mem_filterMap]
  refine exists_congr fun key => and_iff_right_of_imp fun h => ?_
  have hmem := (List.mem_filter.1 (List.mem_of_getLast? h)).1
  rw [List.mem_eraseDups, ← artifactKey_of_artifactsByKey h]
  exact List.mem_map_of_mem hmem

/-- With distinct keys at most one artifact is under a key, whatever the order. -/
theorem artifactsByKey_perm (h : reordered.Perm artifacts)
    (hnodup : (artifacts.map (·.artifactKey)).Nodup) (key : String) :
    artifactsByKey reordered key = artifactsByKey artifacts key := by
  have hperm := h.filter (·.artifactKey = key)
  have hshort : (artifacts.filter (·.artifactKey = key)).length ≤ 1 := by
    rw [← List.countP_eq_length_filter]
    have hcount := List.nodup_iff_count_le_one.1 hnodup key
    rw [List.count_eq_countP, List.countP_map] at hcount
    simpa [Function.comp_def, beq_eq_decide] using hcount
  unfold artifactsByKey
  rcases hfound : artifacts.filter (·.artifactKey = key) with _ | ⟨a, _ | ⟨b, rest⟩⟩
  · rw [hfound, List.perm_nil] at hperm
    rw [hperm, hfound]
  · rw [hfound, List.perm_singleton] at hperm
    rw [hperm, hfound]
  · rw [hfound] at hshort
    simp at hshort

end Kept

end Ajenda.Deliverables
