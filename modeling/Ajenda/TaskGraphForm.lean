import Ajenda.TaskGraphContract

/-!
# Well-formed task graphs

The normal form of a text, of a capability reference, of a node, of an edge and of a graph, as
relations between the metadata and the record the code builds. Each normaliser returns exactly
the normal form, and the dictionary of a normal form is its own normal form.
-/
namespace Ajenda.TaskGraphs
open Ajenda.Runtime (Error bind_eq_ok strip)
open Ajenda.Experience (strip_trimmed strip_of_trimmed)

/-! ## Dictionaries -/

section Dictionaries
variable {d : Dict} {key : String} {v : Value}

theorem jsonSafe_of_lookup (hsafe : Value.jsonSafeFields d = true) (h : d.lookup key = some v) :
    v.jsonSafe = true := by
  induction d with
  | nil => cases h
  | cons f d ih =>
    obtain ⟨k, w⟩ := f
    simp only [Value.jsonSafeFields, Bool.and_eq_true] at hsafe
    rw [List.lookup_cons] at h
    split at h
    · obtain rfl := Option.some.inj h
      exact hsafe.1
    · exact ih hsafe.2 h

theorem jsonSafe_getOr {default : Value} (hsafe : Value.jsonSafeFields d = true)
    (hdefault : default.jsonSafe = true) : (d.getOr key default).jsonSafe = true := by
  unfold Dict.getOr
  cases h : d.lookup key with
  | none => exact hdefault
  | some v => exact jsonSafe_of_lookup hsafe h

theorem jsonSafe_get (hsafe : Value.jsonSafeFields d = true) : (d.get key).jsonSafe = true :=
  jsonSafe_getOr hsafe rfl

theorem jsonSafe_orElse {w : Value} (hv : v.jsonSafe = true) (hw : w.jsonSafe = true) :
    (v.orElse w).jsonSafe = true := by
  cases v with
  | null => exact hw
  | _ => exact hv

theorem mem_select {names : List String} {f : String × Value} (h : f ∈ d.select names) :
    d.lookup f.1 = some f.2 := by
  obtain ⟨name, -, hname⟩ := List.mem_filterMap.1 h
  obtain ⟨w, hlookup, rfl⟩ := Option.map_eq_some_iff.1 hname
  exact hlookup

theorem jsonSafeFields_iff : Value.jsonSafeFields d = true ↔ ∀ f ∈ d, f.2.jsonSafe = true := by
  induction d with
  | nil => simp [Value.jsonSafeFields]
  | cons f d ih => simp [Value.jsonSafeFields, ih]

theorem jsonSafe_select (hsafe : Value.jsonSafeFields d = true) (names : List String) :
    Value.jsonSafeFields (d.select names) = true :=
  jsonSafeFields_iff.2 fun _ hf => jsonSafe_of_lookup hsafe (mem_select hf)

theorem jsonSafe_merged (hsafe : Value.jsonSafeFields d = true) (hv : v.jsonSafe = true) :
    Value.jsonSafeFields (d.merged key v) = true := by
  rw [jsonSafeFields_iff] at hsafe ⊢
  intro f hf
  unfold Dict.merged at hf
  split_ifs at hf
  · obtain ⟨g, hg, rfl⟩ := List.mem_map.1 hf
    split_ifs
    · exact hv
    · exact hsafe g hg
  · rcases List.mem_append.1 hf with hf | hf
    · exact hsafe f hf
    · obtain rfl := List.mem_singleton.1 hf
      exact hv

/-- No selected name is a key. -/
theorem select_eq_nil {names : List String} (h : ∀ name ∈ names, d.lookup name = none) :
    d.select names = [] := by
  rw [Dict.select, List.filterMap_eq_nil_iff]
  exact fun name hname => by rw [h name hname]; rfl

end Dictionaries

/-! ## Checks -/

section Checks
variable {v : Value} {s fieldName : String}

/-- The value is a text that strips to the nonempty `s`. -/
def Text (v : Value) (s : String) : Prop := ∃ t, v = .str t ∧ strip t = s ∧ s ≠ ""

def OptionalText (v : Value) (o : Option String) : Prop :=
  v = .null ∧ o = none ∨ ∃ s, o = some s ∧ Text v s

/-- A text that stripping leaves as it is. -/
def Stripped (s : String) : Prop := strip s = s ∧ s ≠ ""

theorem Text.stripped (h : Text v s) : Stripped s := by
  obtain ⟨t, rfl, rfl, hne⟩ := h
  exact ⟨strip_of_trimmed (strip_trimmed t), hne⟩

theorem Stripped.text (h : Stripped s) : Text (.str s) s := ⟨s, rfl, h⟩

theorem OptionalText.optionalText {o : Option String} (h : OptionalText v o) :
    OptionalText (optionalText o) o := by
  rcases h with ⟨-, rfl⟩ | ⟨s, rfl, htext⟩
  · exact .inl ⟨rfl, rfl⟩
  · exact .inr ⟨s, rfl, htext.stripped.text⟩

theorem require_eq_ok {condition : Prop} [Decidable condition] {message : String} {u : Unit} :
    require condition message = .ok u ↔ condition := by
  unfold require reject
  split_ifs with h <;> simp [h]

theorem requireTaskGraphObject_eq_ok {d : Dict} :
    requireTaskGraphObject v fieldName = .ok d ↔ v = .dict d := by
  unfold requireTaskGraphObject reject
  cases v <;> simp

theorem requireList_eq_ok {items : List Value} :
    requireList v fieldName = .ok items ↔ v = .list items := by
  unfold requireList reject
  cases v <;> simp

theorem jsonSafeContractCopy_eq_ok {w : Value} :
    jsonSafeContractCopy v fieldName = .ok w ↔ v.jsonSafe = true ∧ v = w := by
  unfold jsonSafeContractCopy reject
  split_ifs with h <;> simp [h]

theorem copyObject_eq_ok {d : Dict} (hsafe : v.jsonSafe = true) :
    copyObject v fieldName = .ok d ↔ v = .dict d := by
  unfold copyObject
  simp only [bind_eq_ok, requireTaskGraphObject_eq_ok, jsonSafeContractCopy_eq_ok]
  constructor
  · rintro ⟨fields, rfl, copy, -, h⟩
    rw [Except.ok.inj h]
  · rintro rfl
    exact ⟨d, rfl, .dict d, ⟨hsafe, rfl⟩, rfl⟩

theorem normalizeRequiredTaskGraphText_eq_ok :
    normalizeRequiredTaskGraphText v fieldName = .ok s ↔ Text v s := by
  unfold normalizeRequiredTaskGraphText reject Text
  cases v with
  | str t =>
    dsimp only
    split_ifs with h
    · simp only [Value.str.injEq, false_iff]
      rintro ⟨t', rfl, rfl, hne⟩
      exact hne h
    · simp only [Except.ok.injEq, Value.str.injEq]
      constructor
      · rintro rfl
        exact ⟨t, rfl, rfl, h⟩
      · rintro ⟨t', rfl, hs, -⟩
        exact hs
  | _ => simp

theorem normalizeOptionalTaskGraphText_eq_ok {o : Option String} :
    normalizeOptionalTaskGraphText v fieldName = .ok o ↔ OptionalText v o := by
  unfold normalizeOptionalTaskGraphText reject OptionalText Text
  cases v with
  | null =>
    constructor
    · intro h
      exact .inl ⟨rfl, (Except.ok.inj h).symm⟩
    · rintro (⟨-, rfl⟩ | ⟨s, -, t, h, -⟩)
      · rfl
      · cases h
  | str t =>
    dsimp only
    split_ifs with h
    · simp only [false_and, Value.str.injEq, false_or, false_iff]
      rintro ⟨s, -, t', rfl, rfl, hne⟩
      exact hne h
    · simp only [Except.ok.injEq, false_and, Value.str.injEq, false_or]
      constructor
      · rintro rfl
        exact ⟨strip t, rfl, t, rfl, rfl, h⟩
      · rintro ⟨s, rfl, t', rfl, rfl, -⟩
        rfl
  | _ => simp

/-- The metadata with the legacy fields of `raw`. -/
def keptMetadata (legacy : Bool) (raw metadata : Dict) (names : List String) : Dict :=
  if legacy = true ∧ raw.select names ≠ [] then
    metadata.merged "legacy_v1" (.dict (raw.select names))
  else metadata

theorem mapM_copy {fields : Dict} (h : ∀ f ∈ fields, f.2.jsonSafe = true) :
    (fields.mapM fun f => (do
      let copy ← jsonSafeContractCopy f.2 (fieldName ++ f.1)
      pure (f.1, copy) : Except Error (String × Value))) = .ok fields := by
  induction fields with
  | nil => rfl
  | cons f fields ih =>
    rw [List.mapM_cons, ih fun g hg => h g (List.mem_cons_of_mem _ hg)]
    simp [jsonSafeContractCopy, h f List.mem_cons_self, bind, Except.bind, pure, Except.pure]

theorem keepLegacy_eq {legacy : Bool} {raw metadata : Dict} {names : List String}
    (hsafe : Value.jsonSafeFields raw = true) :
    keepLegacy legacy raw metadata names fieldName = .ok (keptMetadata legacy raw metadata names) := by
  unfold keepLegacy keptMetadata
  cases legacy with
  | false => rfl
  | true =>
    rw [mapM_copy fun f hf => jsonSafe_of_lookup hsafe (mem_select hf)]
    by_cases hnone : raw.select names = []
    · simp [hnone, bind, Except.bind, pure, Except.pure]
    · simp [hnone, bind, Except.bind, pure, Except.pure]

theorem keptMetadata_of_lookup {legacy : Bool} {raw metadata : Dict} {names : List String}
    (h : ∀ name ∈ names, raw.lookup name = none) :
    keptMetadata legacy raw metadata names = metadata := by
  rw [keptMetadata, if_neg fun hc => hc.2 (select_eq_nil h)]

theorem jsonSafe_kept {legacy : Bool} {raw metadata : Dict} {names : List String}
    (hraw : Value.jsonSafeFields raw = true) (hmetadata : Value.jsonSafeFields metadata = true) :
    Value.jsonSafeFields (keptMetadata legacy raw metadata names) = true := by
  unfold keptMetadata
  split_ifs
  · exact jsonSafe_merged hmetadata (jsonSafe_select hraw names)
  · exact hmetadata

end Checks

/-! ## Capability references -/

section Capabilities
variable {v : Value} {r : CapabilityReference}

/-- The normal form of a capability reference. -/
structure CapabilityForm (reference : Dict) (r : CapabilityReference) : Prop where
  fields : ∀ f ∈ reference, f.1 ∈ capabilityAllowedFields
  capabilityId : OptionalText (reference.get "capability_id") r.capabilityId
  name : OptionalText (reference.get "name") r.name
  named : r.capabilityId ≠ none ∨ r.name ≠ none
  version : OptionalText (reference.get "version") r.version
  purpose : OptionalText (reference.get "purpose") r.purpose

theorem normalizeTaskGraphCapabilityReference_eq_ok :
    normalizeTaskGraphCapabilityReference v = .ok r ↔
      ∃ reference, v = .dict reference ∧ CapabilityForm reference r := by
  unfold normalizeTaskGraphCapabilityReference
  simp only [bind_eq_ok, requireTaskGraphObject_eq_ok, require_eq_ok,
    normalizeOptionalTaskGraphText_eq_ok]
  constructor
  · rintro ⟨reference, rfl, -, hfields, capabilityId, hid, name, hname, -, hnamed, version,
      hversion, purpose, hpurpose, h⟩
    obtain rfl := Except.ok.inj h
    exact ⟨reference, rfl, hfields, hid, hname, hnamed, hversion, hpurpose⟩
  · rintro ⟨reference, rfl, h⟩
    exact ⟨reference, rfl, (), h.fields, _, h.capabilityId, _, h.name, (), h.named, _, h.version,
      _, h.purpose, rfl⟩

theorem CapabilityForm.toDict {reference : Dict} (h : CapabilityForm reference r) :
    CapabilityForm r.toDict r := by
  refine ⟨?_, h.capabilityId.optionalText, h.name.optionalText, h.named, h.version.optionalText,
    h.purpose.optionalText⟩
  simp [CapabilityReference.toDict, capabilityAllowedFields]

theorem CapabilityReference.jsonSafe_toDict (r : CapabilityReference) : (Value.dict r.toDict).jsonSafe = true := by
  have hoptional : ∀ o, (optionalText o).jsonSafe = true := by
    intro o
    cases o <;> rfl
  simp [CapabilityReference.toDict, Value.jsonSafe, Value.jsonSafeFields, hoptional]

/-- The references of a node, when it has them, start with `r`. -/
def ReferencesForm (references : Value) (r : CapabilityReference) : Prop :=
  references = .null ∨ ∃ first rest reference, references = .list (first :: rest) ∧
    first = .dict reference ∧ CapabilityForm reference r

theorem checkCapabilityReferences_eq_ok {u : Unit} :
    checkCapabilityReferences v r = .ok u ↔ ReferencesForm v r := by
  unfold checkCapabilityReferences ReferencesForm reject
  split
  · simp
  next first rest =>
    simp only [bind_eq_ok, normalizeTaskGraphCapabilityReference_eq_ok, require_eq_ok]
    constructor
    · rintro ⟨_, ⟨reference, rfl, h⟩, rfl⟩
      exact .inr ⟨_, rest, reference, rfl, rfl, h⟩
    · rintro (h | ⟨_, _, reference, h, rfl, hform⟩)
      · cases h
      · simp only [Value.list.injEq, List.cons.injEq] at h
        exact ⟨r, ⟨reference, h.1, hform⟩, rfl⟩
  next hnull hlist =>
    simp only [reduceCtorEq, false_iff]
    rintro (rfl | ⟨first, rest, _, rfl, -⟩)
    · exact hnull rfl
    · exact hlist first rest rfl

end Capabilities

/-! ## Nodes -/

section Nodes
variable {legacy : Bool} {node : Dict} {n : TaskGraphNode}

/-- The normal form of a node. -/
structure NodeForm (legacy : Bool) (node : Dict) (n : TaskGraphNode) : Prop where
  fields : ∀ f ∈ node, f.1 ∈ nodeAllowedFields ∨ legacy ∧ f.1 ∈ legacyV1NodeAllowedFields
  nodeKey : Text ((node.get "node_key").orElse (node.get "key")) n.nodeKey
  key : Text ((node.get "key").orElse (.str n.nodeKey)) n.nodeKey
  title : Text (nodeTitle legacy node) n.title
  description : Text (nodeDescription legacy node) n.description
  capabilityReference : ∃ reference, rawCapabilityReference legacy node = .ok (.dict reference) ∧
    CapabilityForm reference n.capabilityReference
  capabilityReferences : ReferencesForm (node.get "capability_references") n.capabilityReference
  inputContract : node.getOr "input_contract" (.dict []) = .dict n.inputContract
  outputContract : nodeOutputContract legacy node = .dict n.outputContract
  metadata : ∃ metadata, node.getOr "metadata" (.dict []) = .dict metadata ∧
    n.metadata = keptMetadata legacy node metadata legacyV1NodeMetadata

variable (legacy) in
theorem jsonSafe_nodeOutputContract (hsafe : Value.jsonSafeFields node = true) :
    (nodeOutputContract legacy node).jsonSafe = true := by
  have hempty : (Value.dict []).jsonSafe = true := rfl
  unfold nodeOutputContract
  refine jsonSafe_orElse (jsonSafe_orElse (jsonSafe_get hsafe) ?_) hempty
  split_ifs
  · exact jsonSafe_getOr hsafe hempty
  · rfl

theorem normalizeTaskGraphNode_eq_ok (hsafe : (Value.dict node).jsonSafe = true) :
    normalizeTaskGraphNode legacy (.dict node) = .ok n ↔ NodeForm legacy node n := by
  have hfields : Value.jsonSafeFields node = true := hsafe
  have hempty : (Value.dict []).jsonSafe = true := rfl
  have houtput := jsonSafe_nodeOutputContract legacy hfields
  unfold normalizeTaskGraphNode
  simp only [bind_eq_ok, requireTaskGraphObject_eq_ok, require_eq_ok, Value.dict.injEq,
    normalizeRequiredTaskGraphText_eq_ok, normalizeTaskGraphCapabilityReference_eq_ok,
    checkCapabilityReferences_eq_ok]
  constructor
  · rintro ⟨_, rfl, -, hallowed, nodeKey, hnodeKey, key, hkey, -, rfl, title, htitle, description,
      hdescription, _, hraw, reference, ⟨dict, rfl, hreference⟩, -, hreferences, input, hinput,
      output, houtputs, metadata, hmetadata, kept, hkept, h⟩
    rw [copyObject_eq_ok (jsonSafe_getOr hfields hempty)] at hinput hmetadata
    rw [copyObject_eq_ok houtput] at houtputs
    rw [keepLegacy_eq hfields] at hkept
    obtain rfl := Except.ok.inj hkept
    obtain rfl := Except.ok.inj h
    exact ⟨hallowed, hnodeKey, hkey, htitle, hdescription, ⟨dict, hraw, hreference⟩, hreferences,
      hinput, houtputs, metadata, hmetadata, rfl⟩
  · intro h
    obtain ⟨reference, hraw, hreference⟩ := h.capabilityReference
    obtain ⟨metadata, hmetadata, hkept⟩ := h.metadata
    refine ⟨node, rfl, (), h.fields, _, h.nodeKey, _, h.key, (), rfl, _, h.title, _, h.description,
      _, hraw, _, ⟨reference, rfl, hreference⟩, (), h.capabilityReferences, _,
      (copyObject_eq_ok (jsonSafe_getOr hfields hempty)).2 h.inputContract, _,
      (copyObject_eq_ok houtput).2 h.outputContract, _,
      (copyObject_eq_ok (jsonSafe_getOr hfields hempty)).2 hmetadata, _, keepLegacy_eq hfields, ?_⟩
    rw [← hkept]
    rfl

theorem NodeForm.jsonSafe (h : NodeForm legacy node n) (hsafe : (Value.dict node).jsonSafe = true) :
    (Value.dict n.toDict).jsonSafe = true := by
  have hinput : Value.jsonSafeFields n.inputContract = true := by
    have h' : (node.getOr "input_contract" (.dict [])).jsonSafe = true :=
      jsonSafe_getOr hsafe rfl
    rwa [h.inputContract] at h'
  have houtput : Value.jsonSafeFields n.outputContract = true := by
    have h' := jsonSafe_nodeOutputContract legacy hsafe
    rwa [h.outputContract] at h'
  have hkept : Value.jsonSafeFields n.metadata = true := by
    obtain ⟨metadata, hmetadata, hkept⟩ := h.metadata
    have h' : (node.getOr "metadata" (.dict [])).jsonSafe = true :=
      jsonSafe_getOr hsafe rfl
    rw [hmetadata] at h'
    rw [hkept]
    exact jsonSafe_kept hsafe h'
  have hreference : Value.jsonSafeFields n.capabilityReference.toDict = true :=
    CapabilityReference.jsonSafe_toDict n.capabilityReference
  simp [TaskGraphNode.toDict, Value.jsonSafe, Value.jsonSafeFields, Value.jsonSafeItems, hinput,
    houtput, hkept, hreference]

/-- The dictionary of a normalised node is its own normal form. -/
theorem NodeForm.toDict (h : NodeForm legacy node n) : NodeForm legacy n.toDict n := by
  obtain ⟨reference, -, hreference⟩ := h.capabilityReference
  refine ⟨?_, h.nodeKey.stripped.text, h.nodeKey.stripped.text, h.title.stripped.text,
    h.description.stripped.text, ⟨_, rfl, hreference.toDict⟩,
    .inr ⟨_, [], _, rfl, rfl, hreference.toDict⟩, rfl, rfl, n.metadata, rfl, ?_⟩
  · simp [TaskGraphNode.toDict, nodeAllowedFields]
  · rw [keptMetadata_of_lookup]
    simp [legacyV1NodeMetadata, TaskGraphNode.toDict, List.lookup_cons]

end Nodes

/-! ## Edges -/

section Edges
variable {legacy : Bool} {edge : Dict} {e : TaskGraphEdge}

/-- The normal form of an edge. -/
structure EdgeForm (legacy : Bool) (edge : Dict) (e : TaskGraphEdge) : Prop where
  fields : ∀ f ∈ edge, f.1 ∈ edgeAllowedFields ∨ legacy ∧ f.1 = "description"
  metadata : ∃ metadata, edge.getOr "metadata" (.dict []) = .dict metadata ∧
    e.metadata = keptMetadata legacy edge metadata ["description"]
  fromNodeKey : Text (edge.get "from_node_key") e.fromNodeKey
  toNodeKey : Text (edge.get "to_node_key") e.toNodeKey
  dependencyType : Text (edge.get "dependency_type") e.dependencyType

theorem normalizeTaskGraphEdge_eq_ok (hsafe : (Value.dict edge).jsonSafe = true) :
    normalizeTaskGraphEdge legacy (.dict edge) = .ok e ↔ EdgeForm legacy edge e := by
  have hfields : Value.jsonSafeFields edge = true := hsafe
  have hempty : (Value.dict []).jsonSafe = true := rfl
  unfold normalizeTaskGraphEdge
  simp only [bind_eq_ok, requireTaskGraphObject_eq_ok, require_eq_ok, Value.dict.injEq,
    normalizeRequiredTaskGraphText_eq_ok]
  constructor
  · rintro ⟨_, rfl, -, hallowed, metadata, hmetadata, kept, hkept, fromNodeKey, hfrom, toNodeKey,
      hto, dependencyType, htype, h⟩
    rw [copyObject_eq_ok (jsonSafe_getOr hfields hempty)] at hmetadata
    rw [keepLegacy_eq hfields] at hkept
    obtain rfl := Except.ok.inj hkept
    obtain rfl := Except.ok.inj h
    exact ⟨hallowed, ⟨metadata, hmetadata, rfl⟩, hfrom, hto, htype⟩
  · intro h
    obtain ⟨metadata, hmetadata, hkept⟩ := h.metadata
    refine ⟨edge, rfl, (), h.fields, _,
      (copyObject_eq_ok (jsonSafe_getOr hfields hempty)).2 hmetadata, _, keepLegacy_eq hfields, _,
      h.fromNodeKey, _, h.toNodeKey, _, h.dependencyType, ?_⟩
    rw [← hkept]
    rfl

theorem EdgeForm.jsonSafe (h : EdgeForm legacy edge e) (hsafe : (Value.dict edge).jsonSafe = true) :
    (Value.dict e.toDict).jsonSafe = true := by
  have hkept : Value.jsonSafeFields e.metadata = true := by
    obtain ⟨metadata, hmetadata, hkept⟩ := h.metadata
    have h' : (edge.getOr "metadata" (.dict [])).jsonSafe = true :=
      jsonSafe_getOr hsafe rfl
    rw [hmetadata] at h'
    rw [hkept]
    exact jsonSafe_kept hsafe h'
  simp [TaskGraphEdge.toDict, Value.jsonSafe, Value.jsonSafeFields, hkept]

theorem EdgeForm.toDict (h : EdgeForm legacy edge e) : EdgeForm legacy e.toDict e := by
  refine ⟨?_, ⟨e.metadata, rfl, ?_⟩, h.fromNodeKey.stripped.text, h.toNodeKey.stripped.text,
    h.dependencyType.stripped.text⟩
  · simp [TaskGraphEdge.toDict, edgeAllowedFields]
  · rw [keptMetadata_of_lookup]
    simp [TaskGraphEdge.toDict, List.lookup_cons]

end Edges

/-! ## Graphs -/

section Lists
variable {α β : Type} {f : α → Except Error β}

theorem mapM_eq_ok {xs : List α} {ys : List β} :
    xs.mapM f = .ok ys ↔ List.Forall₂ (fun x y => f x = .ok y) xs ys := by
  induction xs generalizing ys with
  | nil =>
    rw [List.mapM_nil, List.forall₂_nil_left_iff]
    exact ⟨fun h => (Except.ok.inj h).symm, fun h => by rw [h]; rfl⟩
  | cons x xs ih =>
    rw [List.mapM_cons, List.forall₂_cons_left_iff]
    simp only [bind_eq_ok, ih]
    constructor
    · rintro ⟨y, hy, rest, hrest, h⟩
      exact ⟨y, rest, hy, hrest, (Except.ok.inj h).symm⟩
    · rintro ⟨y, rest, hy, hrest, rfl⟩
      exact ⟨y, hy, rest, hrest, rfl⟩

theorem jsonSafeItems_iff {items : List Value} :
    Value.jsonSafeItems items = true ↔ ∀ v ∈ items, v.jsonSafe = true := by
  induction items with
  | nil => simp [Value.jsonSafeItems]
  | cons v items ih => simp [Value.jsonSafeItems, ih]

end Lists

section Graphs
variable {legacy : Bool} {graph : Dict} {g : TaskGraph}

/-- Each member is an object and has the normal form at its place. -/
def ObjectsForm {β : Type} (Form : Dict → β → Prop) (items : List Value) (ys : List β) : Prop :=
  List.Forall₂ (fun v y => ∃ d, v = .dict d ∧ Form d y) items ys

/-- A normaliser of objects, applied to a list of JSON-safe values. -/
theorem mapM_objects {β : Type} {f : Value → Except Error β} {Form : Dict → β → Prop}
    (hobject : ∀ v y, f v = .ok y → ∃ d, v = .dict d)
    (hform : ∀ d y, (Value.dict d).jsonSafe = true → (f (.dict d) = .ok y ↔ Form d y))
    {items : List Value} (hsafe : (Value.list items).jsonSafe = true) (ys : List β) :
    items.mapM f = .ok ys ↔ ObjectsForm Form items ys := by
  have hmembers : ∀ v ∈ items, v.jsonSafe = true := jsonSafeItems_iff.1 hsafe
  clear hsafe
  rw [mapM_eq_ok, ObjectsForm]
  induction items generalizing ys with
  | nil => simp
  | cons v items ih =>
    rw [List.forall₂_cons_left_iff, List.forall₂_cons_left_iff]
    have hrest := fun ys => ih ys fun w hw => hmembers w (List.mem_cons_of_mem _ hw)
    have hfirst : ∀ y, f v = .ok y ↔ ∃ d, v = .dict d ∧ Form d y := by
      intro y
      constructor
      · intro h
        obtain ⟨d, rfl⟩ := hobject v y h
        exact ⟨d, rfl, (hform d y (hmembers _ List.mem_cons_self)).1 h⟩
      · rintro ⟨d, rfl, h⟩
        exact (hform d y (hmembers _ List.mem_cons_self)).2 h
    simp only [hfirst, hrest]

/-- The text of a legacy graph under `fieldName`, if it has one. -/
def LegacyText (legacy : Bool) (graph : Dict) (fieldName : String) (o : Option String) : Prop :=
  if legacy then (graph.lookup fieldName = none ∧ o = none) ∨
    ∃ v s, graph.lookup fieldName = some v ∧ o = some s ∧ Text v s
  else o = none

def LegacyVersion (legacy : Bool) (graph : Dict) (o : Option ℤ) : Prop :=
  if legacy then (graph.lookup "graph_version" = none ∧ o = none) ∨
    ∃ z, graph.lookup "graph_version" = some (.int z) ∧ o = some z ∧ 1 ≤ z
  else o = none

/-- The normal form of a graph. -/
structure GraphForm (legacy : Bool) (graph : Dict) (g : TaskGraph) : Prop where
  fields : ∀ f ∈ graph, f.1 ∈ graphAllowedFields ∨ legacy ∧ f.1 ∈ legacyV1AllowedFields
  schemaVersion : (graph.get "schema_version").isOne = true
  graphStatus : Text (graph.get "graph_status") g.graphStatus
  draft : legacy = false → graph.get "graph_status" = .str "draft"
  nodes : ∃ items, graph.get "nodes" = .list items ∧ ObjectsForm (NodeForm legacy) items g.nodes
  edges : ∃ items, (graph.get "edges").orElse (.list []) = .list items ∧
    ObjectsForm (EdgeForm legacy) items g.edges
  metadata : ∃ metadata, graph.getOr "metadata" (.dict []) = .dict metadata ∧
    g.metadata = keptMetadata legacy graph metadata ["operator_notes", "validation_metadata"]
  missionId : LegacyText legacy graph "mission_id" g.missionId
  graphVersion : LegacyVersion legacy graph g.graphVersion
  graphFingerprint : LegacyText legacy graph "graph_fingerprint" g.graphFingerprint

theorem requireSchemaVersion_eq_ok {v : Value} {u : Unit} :
    requireSchemaVersion v = .ok u ↔ v.isOne = true := by
  unfold requireSchemaVersion
  split_ifs with h <;> simp [h]

theorem normalizeGraphStatus_eq_ok {v : Value} {s : String} :
    normalizeGraphStatus legacy v = .ok s ↔ Text v s ∧ (legacy = false → v = .str "draft") := by
  unfold normalizeGraphStatus
  cases legacy with
  | true => simp [normalizeRequiredTaskGraphText_eq_ok]
  | false =>
    have hdraft : Stripped "draft" := ⟨by decide, by decide⟩
    simp only [Bool.false_eq_true, if_false, forall_const]
    split
    · constructor
      · intro h
        obtain rfl := Except.ok.inj h
        exact ⟨hdraft.text, rfl⟩
      · rintro ⟨⟨t, ht, rfl, -⟩, -⟩
        obtain rfl := Value.str.inj ht
        rw [hdraft.1]
    next hstatus =>
      refine iff_of_false (fun h => by cases h) ?_
      rintro ⟨-, rfl⟩
      exact hstatus rfl

theorem legacyText_eq_ok {fieldName : String} {o : Option String} :
    legacyText legacy graph fieldName = .ok o ↔ LegacyText legacy graph fieldName o := by
  unfold legacyText LegacyText
  cases legacy with
  | false => simp [eq_comm]
  | true =>
    cases hlookup : graph.lookup fieldName with
    | none => simp [eq_comm]
    | some v =>
      simp only [if_true, bind_eq_ok, normalizeRequiredTaskGraphText_eq_ok]
      constructor
      · rintro ⟨s, hs, h⟩
        exact .inr ⟨v, s, rfl, (Except.ok.inj h).symm, hs⟩
      · rintro (⟨h, -⟩ | ⟨w, s, hw, rfl, hs⟩)
        · cases h
        · obtain rfl := Option.some.inj hw
          exact ⟨s, hs, rfl⟩

theorem legacyVersion_eq_ok {o : Option ℤ} :
    legacyVersion legacy graph = .ok o ↔ LegacyVersion legacy graph o := by
  unfold legacyVersion LegacyVersion reject
  cases legacy with
  | false => simp [eq_comm]
  | true =>
    cases hlookup : graph.lookup "graph_version" with
    | none => simp [eq_comm]
    | some v =>
      cases v with
      | int z =>
        by_cases hz : z < 1
        · simp [hz]
        · simp [hz, Int.not_lt.1 hz, eq_comm]
      | _ => simp

theorem ObjectsForm.exists_of_mem {β : Type} {Form : Dict → β → Prop} {items : List Value}
    {ys : List β} (h : ObjectsForm Form items ys) {y : β} (hy : y ∈ ys) :
    ∃ v ∈ items, ∃ d, v = .dict d ∧ Form d y := by
  induction h with
  | nil => cases hy
  | cons hfirst hrest ih =>
    rcases List.mem_cons.1 hy with rfl | hy
    · exact ⟨_, List.mem_cons_self, hfirst⟩
    · obtain ⟨v, hv, hform⟩ := ih hy
      exact ⟨v, List.mem_cons_of_mem _ hv, hform⟩

theorem objectsForm_map {β : Type} {Form : Dict → β → Prop} (toDict : β → Dict) {ys : List β}
    (h : ∀ y ∈ ys, Form (toDict y) y) : ObjectsForm Form (ys.map fun y => .dict (toDict y)) ys := by
  rw [ObjectsForm, List.forall₂_map_left_iff, List.forall₂_same]
  exact fun y hy => ⟨toDict y, rfl, h y hy⟩

/-- The dictionaries of normal forms have the same normal forms. -/
theorem ObjectsForm.toDict {β : Type} {Form : Dict → β → Prop} (toDict : β → Dict)
    (hform : ∀ d y, Form d y → Form (toDict y) y) {items : List Value} {ys : List β}
    (h : ObjectsForm Form items ys) :
    ObjectsForm Form (ys.map fun y => .dict (toDict y)) ys := by
  refine objectsForm_map toDict fun y hy => ?_
  obtain ⟨v, -, d, -, hd⟩ := h.exists_of_mem hy
  exact hform d y hd

theorem ObjectsForm.jsonSafe {β : Type} {Form : Dict → β → Prop} (toDict : β → Dict)
    (hform : ∀ d y, Form d y → (Value.dict d).jsonSafe = true →
      (Value.dict (toDict y)).jsonSafe = true) {items : List Value} {ys : List β}
    (h : ObjectsForm Form items ys) (hsafe : (Value.list items).jsonSafe = true) :
    (Value.list (ys.map fun y => .dict (toDict y))).jsonSafe = true := by
  induction h with
  | nil => rfl
  | cons hfirst hrest ih =>
    obtain ⟨d, rfl, hd⟩ := hfirst
    simp only [Value.jsonSafe, Value.jsonSafeItems, Bool.and_eq_true] at hsafe
    have hy := hform d _ hd hsafe.1
    have hys := ih hsafe.2
    simp only [List.map_cons, Value.jsonSafe, Value.jsonSafeItems, Bool.and_eq_true]
    exact ⟨hy, hys⟩

theorem LegacyText.stripped {fieldName : String} {o : Option String}
    (h : LegacyText legacy graph fieldName o) {s : String} (hs : o = some s) :
    legacy = true ∧ Stripped s := by
  unfold LegacyText at h
  split_ifs at h with hlegacy
  · rcases h with ⟨-, rfl⟩ | ⟨v, s', -, rfl, htext⟩
    · cases hs
    · obtain rfl := Option.some.inj hs
      exact ⟨hlegacy, htext.stripped⟩
  · cases h.symm.trans hs

theorem LegacyVersion.pos {o : Option ℤ} (h : LegacyVersion legacy graph o) {z : ℤ}
    (hz : o = some z) : legacy = true ∧ 1 ≤ z := by
  unfold LegacyVersion at h
  split_ifs at h with hlegacy
  · rcases h with ⟨-, rfl⟩ | ⟨z', -, rfl, hpos⟩
    · cases hz
    · obtain rfl := Option.some.inj hz
      exact ⟨hlegacy, hpos⟩
  · cases h.symm.trans hz

theorem LegacyText.absent {fieldName : String} (h : graph.lookup fieldName = none) :
    LegacyText legacy graph fieldName none := by
  unfold LegacyText
  split_ifs
  · exact .inl ⟨h, rfl⟩
  · rfl

theorem LegacyVersion.absent (h : graph.lookup "graph_version" = none) :
    LegacyVersion legacy graph none := by
  unfold LegacyVersion
  split_ifs
  · exact .inl ⟨h, rfl⟩
  · rfl

/-- The fields of a graph beyond the first five. -/
theorem TaskGraph.lookup_legacy (g : TaskGraph) :
    g.toDict.lookup "mission_id" = g.missionId.map .str ∧
      g.toDict.lookup "graph_version" = g.graphVersion.map .int ∧
      g.toDict.lookup "graph_fingerprint" = g.graphFingerprint.map .str := by
  cases hid : g.missionId <;> cases hversion : g.graphVersion <;>
    cases hprint : g.graphFingerprint <;> simp [TaskGraph.toDict, hid, hversion, hprint, List.lookup_cons]

theorem TaskGraph.lookup_absent (g : TaskGraph) :
    ∀ name ∈ ["operator_notes", "validation_metadata"], g.toDict.lookup name = none := by
  cases hid : g.missionId <;> cases hversion : g.graphVersion <;>
    cases hprint : g.graphFingerprint <;> simp [TaskGraph.toDict, hid, hversion, hprint, List.lookup_cons]

theorem LegacyText.toDict {fieldName : String} {o : Option String} {d : Dict}
    (h : LegacyText legacy graph fieldName o) (hlookup : d.lookup fieldName = o.map .str) :
    LegacyText legacy d fieldName o := by
  cases o with
  | none => exact .absent hlookup
  | some s =>
    obtain ⟨rfl, hs⟩ := h.stripped rfl
    exact .inr ⟨_, s, hlookup, rfl, hs.text⟩

theorem LegacyVersion.toDict {o : Option ℤ} {d : Dict} (h : LegacyVersion legacy graph o)
    (hlookup : d.lookup "graph_version" = o.map .int) : LegacyVersion legacy d o := by
  cases o with
  | none => exact .absent hlookup
  | some z =>
    obtain ⟨rfl, hz⟩ := h.pos rfl
    exact .inr ⟨z, hlookup, rfl, hz⟩

theorem GraphForm.toDict_fields (h : GraphForm legacy graph g) :
    ∀ f ∈ g.toDict, f.1 ∈ graphAllowedFields ∨ legacy ∧ f.1 ∈ legacyV1AllowedFields := by
  intro f hf
  simp only [TaskGraph.toDict, List.mem_append, Option.mem_toList, Option.map_eq_some_iff] at hf
  rcases hf with ((hf | ⟨s, hs, rfl⟩) | ⟨z, hz, rfl⟩) | ⟨s, hs, rfl⟩
  · refine .inl ?_
    simp only [List.mem_cons, List.not_mem_nil, or_false] at hf
    rcases hf with rfl | rfl | rfl | rfl | rfl <;> simp [graphAllowedFields]
  · exact .inr ⟨(h.missionId.stripped hs).1, by simp [legacyV1AllowedFields]⟩
  · exact .inr ⟨(h.graphVersion.pos hz).1, by simp [legacyV1AllowedFields]⟩
  · exact .inr ⟨(h.graphFingerprint.stripped hs).1, by simp [legacyV1AllowedFields]⟩

/-- The dictionary of a normalised graph is its own normal form. -/
theorem GraphForm.toDict (h : GraphForm legacy graph g) : GraphForm legacy g.toDict g := by
  obtain ⟨nodes, -, hnodes⟩ := h.nodes
  obtain ⟨edges, -, hedges⟩ := h.edges
  have hstatus := h.graphStatus
  refine ⟨h.toDict_fields, rfl, hstatus.stripped.text, fun hlegacy => ?_,
    ⟨_, rfl, hnodes.toDict TaskGraphNode.toDict fun _ _ h => h.toDict⟩,
    ⟨_, rfl, hedges.toDict TaskGraphEdge.toDict fun _ _ h => h.toDict⟩,
    ⟨g.metadata, rfl, ?_⟩, h.missionId.toDict g.lookup_legacy.1,
    h.graphVersion.toDict g.lookup_legacy.2.1, h.graphFingerprint.toDict g.lookup_legacy.2.2⟩
  · obtain ⟨t, ht, hs, -⟩ := hstatus
    obtain rfl : "draft" = t := Value.str.inj ((h.draft hlegacy).symm.trans ht)
    exact congrArg Value.str (hs.symm.trans (by decide))
  · rw [keptMetadata_of_lookup g.lookup_absent]

theorem TaskGraph.jsonSafe_toDict (g : TaskGraph)
    (hnodes : (Value.list (g.nodes.map fun n => .dict n.toDict)).jsonSafe = true)
    (hedges : (Value.list (g.edges.map fun e => .dict e.toDict)).jsonSafe = true)
    (hmetadata : (Value.dict g.metadata).jsonSafe = true) :
    (Value.dict g.toDict).jsonSafe = true := by
  refine jsonSafeFields_iff.2 fun f hf => ?_
  simp only [TaskGraph.toDict, List.mem_append, Option.mem_toList, Option.map_eq_some_iff] at hf
  rcases hf with ((hf | ⟨s, -, rfl⟩) | ⟨z, -, rfl⟩) | ⟨s, -, rfl⟩
  · simp only [List.mem_cons, List.not_mem_nil, or_false] at hf
    rcases hf with rfl | rfl | rfl | rfl | rfl
    · rfl
    · rfl
    · exact hnodes
    · exact hedges
    · exact hmetadata
  · rfl
  · rfl
  · rfl

theorem GraphForm.jsonSafe (h : GraphForm legacy graph g)
    (hsafe : (Value.dict graph).jsonSafe = true) : (Value.dict g.toDict).jsonSafe = true := by
  have hnodes : (Value.list (g.nodes.map fun n => .dict n.toDict)).jsonSafe = true := by
    obtain ⟨items, hitems, hnodes⟩ := h.nodes
    exact hnodes.jsonSafe TaskGraphNode.toDict (fun _ _ h => h.jsonSafe)
      (hitems ▸ jsonSafe_get hsafe)
  have hedges : (Value.list (g.edges.map fun e => .dict e.toDict)).jsonSafe = true := by
    obtain ⟨items, hitems, hedges⟩ := h.edges
    exact hedges.jsonSafe TaskGraphEdge.toDict (fun _ _ h => h.jsonSafe)
      (hitems ▸ jsonSafe_orElse (jsonSafe_get hsafe) rfl)
  have hmetadata : (Value.dict g.metadata).jsonSafe = true := by
    obtain ⟨metadata, hmetadata, hkept⟩ := h.metadata
    have hread : (graph.getOr "metadata" (.dict [])).jsonSafe = true :=
      jsonSafe_getOr hsafe rfl
    rw [hmetadata] at hread
    rw [hkept]
    exact jsonSafe_kept hsafe hread
  exact g.jsonSafe_toDict hnodes hedges hmetadata

end Graphs
end Ajenda.TaskGraphs
