import Ajenda.DeliverableCompletion

/-!
# Soundness of completion

A row-oriented field is satisfied by one artifact, unless the artifacts divide the work: one has
the rows without the field, and those with the field are short of rows.
-/
namespace Ajenda.Deliverables
open JsonValue

/-- Content of a cell: something, or an empty list of disqualifiers. -/
def Filled (fieldKey : DeliverableFieldKey) (value : Json) : Prop :=
  value ∉ [.null, .str "", .arr [], .obj []] ∨ fieldKey = .disqualifiers ∧ value = .arr []

/-- An artifact of at least one row, each with content under the field's column. -/
def Carries (artifact : MaterializedArtifact) (fieldKey : DeliverableFieldKey) : Prop :=
  ∃ schema field column rows, artifactSchemaByKey artifact.artifactKey = some schema ∧
    field ∈ schema.fields ∧ field.deliverableField = fieldKey ∧
    pathField field.jsonPath = some column ∧ artifact.payload = .arr rows ∧ rows ≠ [] ∧
    ∀ row ∈ rows, ∃ cells value, row = .obj cells ∧ Fields.get cells column = some value ∧
      Filled fieldKey value

/-- An artifact with a number of rows. -/
def HasRows (artifact : MaterializedArtifact) (minimum : ℤ) : Prop :=
  ∃ rows, artifact.payload = .arr rows ∧ minimum ≤ rows.length

instance (artifact : MaterializedArtifact) (minimum : ℤ) : Decidable (HasRows artifact minimum) :=
  match h : artifact.payload with
  | .arr rows => decidable_of_iff (minimum ≤ rows.length) (by simp [HasRows, h])
  | .null | .bool _ | .num _ | .str _ | .obj _ => isFalse (by simp [HasRows, h])

/-- A typed binding none of whose artifacts holds the field as a whole. -/
structure RowOriented (binding : DeliverableFieldBinding) : Prop where
  typed : binding.basis = .typedArtifactField
  perItem : isWholeArtifactBinding binding = false

instance (binding : DeliverableFieldBinding) : Decidable (RowOriented binding) :=
  decidable_of_iff (binding.basis = .typedArtifactField ∧ isWholeArtifactBinding binding = false)
    ⟨fun h => ⟨h.1, h.2⟩, fun h => ⟨h.typed, h.perItem⟩⟩

section Cells
variable {fieldKey : DeliverableFieldKey} {column : String} {row value : Json}

theorem filled_iff : Filled fieldKey value ↔
    (artifactHasValue value || (fieldKey = .disqualifiers && isList (some value))) = true := by
  unfold Filled
  cases value with
  | null | bool | num | str | obj => simp [artifactHasValue, isList]
  | arr items => cases items <;> simp [artifactHasValue, isList]

theorem cellHasValue_iff : cellHasValue fieldKey column row = true ↔
    ∃ cells value, row = .obj cells ∧ Fields.get cells column = some value ∧
      Filled fieldKey value := by
  cases row with
  | obj cells =>
    cases hvalue : Fields.get cells column with
    | none => simp [cellHasValue, hvalue]
    | some value => simp [cellHasValue, hvalue, filled_iff]
  | null | bool | num | str | arr => simp [cellHasValue]

end Cells

section Presence
variable {artifact : MaterializedArtifact} {schema : CompositionArtifactSchema}
  {field : ArtifactFieldProjection} {column : String}

/-- A schema's own field is carried under the schema's one column for it. -/
theorem carries_iff (hschema : artifactSchemaByKey artifact.artifactKey = some schema)
    (hfield : field ∈ schema.fields) (hcolumn : pathField field.jsonPath = some column) :
    Carries artifact field.deliverableField ↔ ∃ rows, artifact.payload = .arr rows ∧ rows ≠ [] ∧
      ∀ row ∈ rows, cellHasValue field.deliverableField column row = true := by
  constructor
  · rintro ⟨schema', other, column', rows, hschema', hother, hok, hcolumn', hrows, hne, hcells⟩
    obtain rfl := Option.some.inj (hschema.symm.trans hschema')
    have hmem : other ∈ schema.fields.filter (·.deliverableField = field.deliverableField) :=
      List.mem_filter.2 ⟨hother, by simpa using hok⟩
    rw [filter_deliverableField (mem_of_artifactSchemaByKey hschema).1 hfield,
      List.mem_singleton] at hmem
    subst hmem
    obtain rfl := Option.some.inj (hcolumn.symm.trans hcolumn')
    exact ⟨rows, hrows, hne, fun row hrow => cellHasValue_iff.2 (hcells row hrow)⟩
  · rintro ⟨rows, hrows, hne, hcells⟩
    exact ⟨schema, field, column, rows, hschema, hfield, rfl, hcolumn, hrows, hne,
      fun row hrow => cellHasValue_iff.1 (hcells row hrow)⟩

/-- The check of a per-item field finds exactly the artifacts that carry it. -/
theorem typedFieldHasValue_iff
    (hschema : artifactSchemaByKey artifact.artifactKey = some schema)
    (hfield : field ∈ schema.fields) (hscope : field.scope = .perItem) :
    typedFieldHasValue artifact field.deliverableField = true ↔
      Carries artifact field.deliverableField := by
  have hcatalog := (mem_of_artifactSchemaByKey hschema).1
  obtain ⟨column, hcolumn⟩ := Option.isSome_iff_exists.1 (pathField_isSome hcatalog hfield hscope)
  have hwhole : [field].filter (·.scope = .wholeArtifact) = [] := by
    simp [hscope]
  rw [carries_iff hschema hfield hcolumn]
  simp only [typedFieldHasValue, hschema, filter_deliverableField hcatalog hfield, hwhole, ne_eq,
    not_true_eq_false, if_false, List.cons_ne_nil, List.all_cons, List.all_nil, hcolumn,
    Bool.and_true]
  cases artifact.payload with
  | arr items => simp
  | null | bool | num | str | obj => simp

end Presence

section Rows
variable {projection : DeliverableProjection} {binding : DeliverableFieldBinding}
  {artifacts present : List MaterializedArtifact} {artifact : MaterializedArtifact}
  {rows : List Json} {key : String}

theorem mem_presentArtifacts : artifact ∈ presentArtifacts artifacts binding ↔
    ∃ key ∈ binding.artifactKeys, artifactsByKey artifacts key = some artifact :=
  List.mem_filterMap

/-- A present artifact is under its own key, which is one of the binding's. -/
theorem artifactKey_mem_of_present (h : artifact ∈ presentArtifacts artifacts binding) :
    artifact.artifactKey ∈ binding.artifactKeys := by
  obtain ⟨key, hkey, hfound⟩ := mem_presentArtifacts.1 h
  rwa [artifactKey_of_artifactsByKey hfound]

theorem length_le_observedRows (h : artifact ∈ present) (hrows : artifact.payload = .arr rows) :
    rows.length ≤ observedRows present := by
  have hmem : rows.length ∈ present.filterMap rowCount :=
    List.mem_filterMap.2 ⟨artifact, h, by simp [rowCount, hrows]⟩
  obtain ⟨most, hmost⟩ := Option.isSome_iff_exists.1 (List.isSome_max?_of_mem hmem)
  rw [observedRows, hmost]
  exact (List.max?_eq_some_iff.1 hmost).2 _ hmem

/-- The observed rows are some artifact's, unless there are none. -/
theorem exists_observedRows (hpos : 0 < observedRows present) :
    ∃ artifact ∈ present, ∃ rows, artifact.payload = .arr rows ∧
      rows.length = observedRows present := by
  rw [observedRows] at hpos ⊢
  cases hmost : (present.filterMap rowCount).max? with
  | none => simp [hmost] at hpos
  | some most =>
    obtain ⟨artifact, hmem, hcount⟩ :=
      List.mem_filterMap.1 (List.max?_eq_some_iff.1 hmost).1
    rw [rowCount] at hcount
    split at hcount
    next rows hrows => exact ⟨artifact, hmem, rows, hrows, Option.some.inj hcount⟩
    next => cases hcount

variable (projection) in
theorem declaredRows_le_requiredRows (hperItem : isWholeArtifactBinding binding = false)
    (h : key ∈ binding.artifactKeys) :
    declaredRows projection key ≤ requiredRows projection binding := by
  have hmem : declaredRows projection key ∈ binding.artifactKeys.map (declaredRows projection) :=
    List.mem_map_of_mem h
  obtain ⟨most, hmost⟩ := Option.isSome_iff_exists.1 (List.isSome_max?_of_mem hmem)
  rw [requiredRows, if_neg (by simp [hperItem]), hmost]
  exact (List.max?_eq_some_iff.1 hmost).2 _ hmem

/-- In a row-oriented binding the field check is the presence of the field. -/
theorem typedFieldHasValue_present (htyped : Typed binding)
    (hperItem : isWholeArtifactBinding binding = false)
    (h : artifact ∈ presentArtifacts artifacts binding) :
    typedFieldHasValue artifact binding.fieldKey = true ↔ Carries artifact binding.fieldKey := by
  have hkey := artifactKey_mem_of_present h
  obtain ⟨schema, hcatalog, hname, field, hfield, hok⟩ := htyped.projected _ hkey
  have hschema : artifactSchemaByKey artifact.artifactKey = some schema := by
    rw [← hname]
    exact artifactSchemaByKey_of_mem hcatalog
  have hscope : field.scope = .perItem := by
    by_contra hne
    have hwhole : field.scope = .wholeArtifact := by
      cases hscope : field.scope with
      | perItem => exact absurd hscope hne
      | wholeArtifact => rfl
    have hany : isWholeArtifactBinding binding = true := by
      rw [isWholeArtifactBinding, List.any_eq_true]
      refine ⟨_, hkey, ?_⟩
      simp only [hschema, Option.map_some, Option.getD_some, List.any_eq_true]
      exact ⟨field, hfield, by simp [hok, hwhole]⟩
    rw [hperItem] at hany
    cases hany
  rw [← hok]
  exact typedFieldHasValue_iff hschema hfield hscope

end Rows

section Soundness
variable (reportErrors : Fields → List String)

/-- One artifact of the binding is valid, has the rows declared for it and carries the field. -/
def Fulfilled (projection : DeliverableProjection) (artifacts : List MaterializedArtifact)
    (binding : DeliverableFieldBinding) : Prop :=
  ∃ key ∈ binding.artifactKeys, ∃ artifact, artifactsByKey artifacts key = some artifact ∧
    valid reportErrors artifact = true ∧ HasRows artifact (declaredRows projection key) ∧
    Carries artifact binding.fieldKey

/-- The artifacts of a binding divide the work: one that lacks the field has all the rows, and
each that carries the field has too few. -/
structure Divided (projection : DeliverableProjection) (artifacts : List MaterializedArtifact)
    (binding : DeliverableFieldBinding) : Prop where
  valid : ∀ artifact ∈ presentArtifacts artifacts binding, valid reportErrors artifact = true
  long : ∃ artifact ∈ presentArtifacts artifacts binding,
    ¬ Carries artifact binding.fieldKey ∧ HasRows artifact (requiredRows projection binding)
  carried : ∃ artifact ∈ presentArtifacts artifacts binding, Carries artifact binding.fieldKey
  short : ∀ artifact ∈ presentArtifacts artifacts binding, Carries artifact binding.fieldKey →
    ¬ HasRows artifact (declaredRows projection artifact.artifactKey)

variable {projection : DeliverableProjection} {binding : DeliverableFieldBinding}
  {artifacts : List MaterializedArtifact}

/-- What the status of a row-oriented field is decided by. -/
theorem fieldStatus_satisfied (htyped : Typed binding) (hrow : RowOriented binding) :
    fieldStatus reportErrors projection artifacts binding = .satisfied ↔
      (∀ artifact ∈ presentArtifacts artifacts binding, valid reportErrors artifact = true) ∧
      (requiredRows projection binding = 0 ∨ requiredRows projection binding ≤
        (observedRows (presentArtifacts artifacts binding) : ℤ)) ∧
      ∃ artifact ∈ presentArtifacts artifacts binding, Carries artifact binding.fieldKey := by
  have hcarried : (presentArtifacts artifacts binding).any
        (typedFieldHasValue · binding.fieldKey) = true ↔
      ∃ artifact ∈ presentArtifacts artifacts binding, Carries artifact binding.fieldKey := by
    rw [List.any_eq_true]
    refine exists_congr fun artifact => and_congr_right fun h => ?_
    exact typedFieldHasValue_present htyped hrow.perItem h
  have hinvalid : (presentArtifacts artifacts binding).any (!valid reportErrors ·) = true ↔
      ¬ ∀ artifact ∈ presentArtifacts artifacts binding, valid reportErrors artifact = true := by
    simp
  simp only [fieldStatus, htyped.bound, ne_eq, not_true_eq_false, if_false, hrow.typed, hinvalid]
  by_cases hnone : presentArtifacts artifacts binding = []
  · simp [hnone]
  rw [if_neg hnone]
  by_cases hvalid :
      ∀ artifact ∈ presentArtifacts artifacts binding, valid reportErrors artifact = true
  · rw [if_neg (not_not_intro hvalid)]
    split_ifs with hrows hfield
    · refine iff_of_false (by decide) ?_
      rintro ⟨-, hzero | hle, -⟩
      · exact hrows.1 hzero
      · omega
    · refine iff_of_true rfl ⟨hvalid, ?_, hcarried.1 hfield⟩
      by_contra hcon
      rw [not_or, not_le] at hcon
      exact hrows hcon
    · exact iff_of_false (by decide) fun h => hfield (hcarried.2 h.2.2)
  · simp [hvalid]

/-- A satisfied field is fulfilled by one artifact exactly when the work is not divided. -/
theorem satisfied_fulfilled_iff (htyped : Typed binding) (hrow : RowOriented binding) :
    (fieldStatus reportErrors projection artifacts binding = .satisfied →
        Fulfilled reportErrors projection artifacts binding) ↔
      ¬ Divided reportErrors projection artifacts binding := by
  rw [fieldStatus_satisfied reportErrors htyped hrow]
  constructor
  · intro hsound hdivided
    obtain ⟨long, hlong, -, rows, hrows, hle⟩ := hdivided.long
    have hmost := length_le_observedRows hlong hrows
    obtain ⟨key, hkey, artifact, hfound, -, henough, hcarries⟩ :=
      hsound ⟨hdivided.valid, .inr (by omega), hdivided.carried⟩
    rw [← artifactKey_of_artifactsByKey hfound] at henough
    exact hdivided.short artifact (mem_presentArtifacts.2 ⟨key, hkey, hfound⟩) hcarries henough
  · rintro hundivided ⟨hvalid, hobserved, carrier, hcarrier, hcarries⟩
    by_contra hunfulfilled
    have hshort : ∀ artifact ∈ presentArtifacts artifacts binding,
        Carries artifact binding.fieldKey →
          ¬ HasRows artifact (declaredRows projection artifact.artifactKey) := by
      intro artifact hpresent hcarries henough
      obtain ⟨key, hkey, hfound⟩ := mem_presentArtifacts.1 hpresent
      rw [artifactKey_of_artifactsByKey hfound] at henough
      exact hunfulfilled ⟨key, hkey, artifact, hfound, hvalid artifact hpresent, henough, hcarries⟩
    -- the carrier has too few rows, so some are required and another artifact has them
    obtain ⟨-, -, -, rows, -, -, -, -, hrows, -⟩ := id hcarries
    have hfew : (rows.length : ℤ) < declaredRows projection carrier.artifactKey := by
      by_contra hcon
      exact hshort carrier hcarrier hcarries ⟨rows, hrows, not_lt.1 hcon⟩
    have hdeclared := declaredRows_le_requiredRows projection hrow.perItem
      (artifactKey_mem_of_present hcarrier)
    have hmost : requiredRows projection binding ≤
        (observedRows (presentArtifacts artifacts binding) : ℤ) := by omega
    obtain ⟨long, hlong, rows', hrows', hlength⟩ :=
      exists_observedRows (by omega : 0 < observedRows (presentArtifacts artifacts binding))
    refine hundivided ⟨hvalid, ⟨long, hlong, fun hcarries' => ?_, rows', hrows', by omega⟩,
      ⟨carrier, hcarrier, hcarries⟩, hshort⟩
    have hle := declaredRows_le_requiredRows projection hrow.perItem
      (artifactKey_mem_of_present hlong)
    exact hshort long hlong hcarries' ⟨rows', hrows', by omega⟩

variable (projection) in
/-- Artifacts with distinct keys are looked up by key only. -/
theorem evaluate_perm {reordered : List MaterializedArtifact} (hperm : reordered.Perm artifacts)
    (hnodup : (artifacts.map (·.artifactKey)).Nodup) :
    evaluateDeliverableCompletion reportErrors projection reordered =
      evaluateDeliverableCompletion reportErrors projection artifacts := by
  have hkept : artifactsByKey reordered = artifactsByKey artifacts :=
    funext (artifactsByKey_perm hperm hnodup)
  have hcheckable : Checkable reportErrors reordered ↔ Checkable reportErrors artifacts := by
    simp only [Checkable, mem_keptArtifacts, hkept]
  have hfield : fieldCompletion reportErrors projection reordered =
      fieldCompletion reportErrors projection artifacts := by
    funext binding
    have hpresent : presentArtifacts reordered binding = presentArtifacts artifacts binding := by
      rw [presentArtifacts, presentArtifacts, hkept]
    simp only [fieldCompletion, fieldStatus, hpresent]
  simp only [evaluateDeliverableCompletion, hcheckable, hfield]

/-- Completion of a projected request: satisfied row-oriented fields are fulfilled by one
artifact, and the order of artifacts with distinct keys is immaterial. The first holds exactly
when no row-oriented field is divided among artifacts that can all be validated. -/
theorem completion_sound_iff {request : DeliverableRequest} {knowHow : VerticalKnowHowContract}
    {minimumRows : ℤ} {minimumRowsByArtifact : List (String × ℤ)}
    (h : projectDeliverableRequest request knowHow minimumRows minimumRowsByArtifact =
      some projection) (artifacts : List MaterializedArtifact) :
    ((∀ completion, evaluateDeliverableCompletion reportErrors projection artifacts =
          some completion → ∀ entry ∈ projection.bindings.zip completion.fields,
        RowOriented entry.1 → entry.2.status = .satisfied →
          Fulfilled reportErrors projection artifacts entry.1) ∧
      ∀ reordered, reordered.Perm artifacts → (artifacts.map (·.artifactKey)).Nodup →
        evaluateDeliverableCompletion reportErrors projection reordered =
          evaluateDeliverableCompletion reportErrors projection artifacts) ↔
      (Checkable reportErrors artifacts → ∀ binding ∈ projection.bindings, RowOriented binding →
        ¬ Divided reportErrors projection artifacts binding) := by
  rw [and_iff_left fun reordered hperm hnodup =>
    evaluate_perm reportErrors projection hperm hnodup]
  constructor
  · intro hsound hcheckable binding hbinding hrow
    rw [← satisfied_fulfilled_iff reportErrors (projection_typed h hbinding hrow.typed) hrow]
    intro hsatisfied
    refine hsound _ (if_pos hcheckable)
      (binding, fieldCompletion reportErrors projection artifacts binding) ?_ hrow hsatisfied
    rw [← List.map_prod_left_eq_zip]
    exact List.mem_map_of_mem hbinding
  · intro hundivided completion hcompletion entry hentry hrow hsatisfied
    rw [evaluateDeliverableCompletion] at hcompletion
    split_ifs at hcompletion with hcheckable
    obtain rfl := Option.some.inj hcompletion
    rw [← List.map_prod_left_eq_zip] at hentry
    obtain ⟨binding, hbinding, rfl⟩ := List.mem_map.1 hentry
    exact (satisfied_fulfilled_iff reportErrors (projection_typed h hbinding hrow.typed) hrow).2
      (hundivided hcheckable binding hbinding hrow) hsatisfied

end Soundness

section Samples
-- No research report is read in these samples.
def noReportErrors : Fields → List String := fun _ => []

def sampleRow (company : Json) : Json :=
  .obj [("company", company), ("website", .str "https://acme.example"),
    ("product_description", .str "Heat pumps"), ("research_summary", .str "A local maker"),
    ("sources", .arr [.str "https://acme.example"])]

def sampleRequest : DeliverableRequest where
  fields := [.companyName]
  unresolvedItems := []
  fields_bound := by decide
  unresolvedItems_bound := by decide

def sampleBinding : DeliverableFieldBinding :=
  bindingForField (declaredArtifactProducers revopsV1KnowHow) .companyName

/-- Two companies are requested. -/
def sampleProjection : DeliverableProjection where
  bindings := [sampleBinding]
  requestUnresolvedItems := []
  minimumRows := 2
  minimumRowsByArtifact := []

/-- One verified company, and two discovered rows without a name. -/
def dividedArtifacts : List MaterializedArtifact := [
  ⟨"verified_prospect_candidates", .arr [sampleRow (.str "Acme")]⟩,
  ⟨"prospect_candidates", .arr [sampleRow .null, sampleRow .null]⟩]

def wholeArtifacts : List MaterializedArtifact := [
  ⟨"verified_prospect_candidates", .arr [sampleRow (.str "Acme"), sampleRow (.str "Beta")]⟩]

theorem sample_projected :
    projectDeliverableRequest sampleRequest revopsV1KnowHow 2 [] = some sampleProjection := rfl

theorem sample_typed : Typed sampleBinding :=
  projection_typed sample_projected List.mem_cons_self (by decide +kernel)

theorem sample_rowOriented : RowOriented sampleBinding := by decide +kernel

/-- A sample's artifacts are all present in the binding, where the field check is `Carries`. -/
theorem sample_carries {artifacts : List MaterializedArtifact}
    (h : presentArtifacts artifacts sampleBinding = artifacts) :
    ∀ artifact ∈ artifacts, Carries artifact .companyName ↔
      typedFieldHasValue artifact .companyName = true := fun artifact hmem =>
  (typedFieldHasValue_present sample_typed sample_rowOriented.perItem (by rwa [h])).symm

theorem sample_divided : Divided noReportErrors sampleProjection dividedArtifacts sampleBinding := by
  have hpresent : presentArtifacts dividedArtifacts sampleBinding = dividedArtifacts := by
    decide +kernel
  have hcarries := sample_carries hpresent
  refine ⟨?_, ?_, ?_, ?_⟩
  · decide +kernel
  · rw [hpresent]
    refine ⟨_, List.mem_cons_of_mem _ List.mem_cons_self, ?_, by decide +kernel⟩
    rw [show sampleBinding.fieldKey = .companyName from rfl,
      hcarries _ (List.mem_cons_of_mem _ List.mem_cons_self)]
    decide +kernel
  · rw [hpresent]
    exact ⟨_, List.mem_cons_self, (hcarries _ List.mem_cons_self).2 (by decide +kernel)⟩
  · rw [hpresent]
    intro artifact hmem hfield
    have hshort : ∀ artifact ∈ dividedArtifacts,
        typedFieldHasValue artifact .companyName = true →
          ¬ HasRows artifact (declaredRows sampleProjection artifact.artifactKey) := by
      decide +kernel
    exact hshort artifact hmem ((hcarries artifact hmem).1 hfield)

/-- The company name is satisfied although one artifact has the names and the other the rows. -/
theorem divided_satisfied :
    projectDeliverableRequest sampleRequest revopsV1KnowHow 2 [] = some sampleProjection ∧
      ∃ completion, evaluateDeliverableCompletion noReportErrors sampleProjection
          dividedArtifacts = some completion ∧
        ∃ entry ∈ sampleProjection.bindings.zip completion.fields, RowOriented entry.1 ∧
          entry.2.status = .satisfied ∧
          ¬ Fulfilled noReportErrors sampleProjection dividedArtifacts entry.1 := by
  have hsatisfied : fieldStatus noReportErrors sampleProjection dividedArtifacts sampleBinding =
      .satisfied := by
    decide +kernel
  refine ⟨sample_projected, _, if_pos (by decide +kernel), (sampleBinding, _),
    List.mem_cons_self, sample_rowOriented, hsatisfied, fun hfulfilled => ?_⟩
  exact (satisfied_fulfilled_iff noReportErrors sample_typed sample_rowOriented).1
    (fun _ => hfulfilled) sample_divided

/-- Two verified companies fulfil the request. -/
theorem whole_fulfilled : Checkable noReportErrors wholeArtifacts ∧ ∀ completion,
    evaluateDeliverableCompletion noReportErrors sampleProjection wholeArtifacts =
        some completion → ∀ entry ∈ sampleProjection.bindings.zip completion.fields,
      RowOriented entry.1 → entry.2.status = .satisfied →
        Fulfilled noReportErrors sampleProjection wholeArtifacts entry.1 := by
  refine ⟨by decide +kernel,
    ((completion_sound_iff noReportErrors sample_projected wholeArtifacts).2 ?_).1⟩
  intro _ binding hbinding _ hdivided
  obtain rfl := List.mem_singleton.1 hbinding
  have hpresent : presentArtifacts wholeArtifacts sampleBinding = wholeArtifacts := by
    decide +kernel
  obtain ⟨artifact, hmem, hlacks, -⟩ := hdivided.long
  rw [hpresent] at hmem
  refine hlacks ((sample_carries hpresent artifact hmem).2 ?_)
  obtain rfl := List.mem_singleton.1 hmem
  decide +kernel

end Samples

end Ajenda.Deliverables
