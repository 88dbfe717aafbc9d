import Ajenda.CanonicalText
import Ajenda.DepthFirst
import Ajenda.RuntimeState

/-!
# The task graph contract of a mission

`normalize_mission_task_graph_contract_metadata` checks the fields of a graph, of its nodes and
of its edges, strips their texts and searches the dependencies for a cycle. `GraphForm` says
which metadata is well formed and what its normal form is. The search is recursive: `stack` is
the number of calls of `visit` that fit on the interpreter's stack.
-/
namespace Ajenda.TaskGraphs
open JsonValue (JsonNumber)
open Ajenda.Runtime (Error bind_eq_ok strip)
open Ajenda.Experience (strip_trimmed strip_of_trimmed)
open DepthFirst (Acyclic Nested)

/-- What `json` reads and writes; `int` and `float` are different types. -/
inductive Value
  | null
  | bool (b : Bool)
  | int (z : ℤ)
  | float (x : JsonNumber)
  | str (s : String)
  | list (items : List Value)
  | dict (fields : List (String × Value))

abbrev Dict := List (String × Value)

namespace Value

mutual
/-- `json.dumps` with `allow_nan=False` accepts the value. Its own limits, the depth of the nesting
and 4300 digits of an integer, are left out. -/
def jsonSafe : Value → Bool
  | .float (.finite _) => true
  | .float _ => false
  | .list items => jsonSafeItems items
  | .dict fields => jsonSafeFields fields
  | _ => true
def jsonSafeItems : List Value → Bool
  | [] => true
  | v :: vs => v.jsonSafe && jsonSafeItems vs
def jsonSafeFields : List (String × Value) → Bool
  | [] => true
  | (_, v) :: fs => v.jsonSafe && jsonSafeFields fs
end

def truthy : Value → Bool
  | .null => false
  | .bool b => b
  | .int z => z ≠ 0
  | .float x => x ≠ .finite 0
  | .str s => s ≠ ""
  | .list items => !items.isEmpty
  | .dict fields => !fields.isEmpty

/-- The value equals the number one: so do `True` and `1.0`. -/
def isOne : Value → Bool
  | .int z => z = 1
  | .bool b => b
  | .float x => x = .finite 1
  | _ => false

/-- The second value where the first is `None`. -/
def orElse : Value → Value → Value
  | .null, w => w
  | v, _ => v

end Value

namespace Dict

/-- `d.get(key, default)`. -/
def getOr (d : Dict) (key : String) (default : Value) : Value := (d.lookup key).getD default

def get (d : Dict) (key : String) : Value := d.getOr key .null

/-- `{**d, key: value}`. -/
def merged (d : Dict) (key : String) (value : Value) : Dict :=
  if (d.lookup key).isSome then d.map fun f => if f.1 = key then (key, value) else f
  else d ++ [(key, value)]

/-- The entries of `d` under some of its keys. -/
def select (d : Dict) (keys : List String) : Dict :=
  keys.filterMap fun key => (d.lookup key).map fun value => (key, value)

end Dict

/-! ## Checks -/

def reject {α : Type} (message : String) : Except Error α :=
  .error (.value ("mission task graph " ++ message))

def require (condition : Prop) [Decidable condition] (message : String) : Except Error Unit :=
  if condition then .ok () else reject message

/-- `_json_safe_contract_copy`: a copy with its keys sorted, and the order carries no meaning. -/
def jsonSafeContractCopy (value : Value) (fieldName : String) : Except Error Value :=
  if value.jsonSafe then .ok value else reject (fieldName ++ " must be JSON-safe")

/-- `_require_task_graph_object`. -/
def requireTaskGraphObject (value : Value) (fieldName : String) : Except Error Dict :=
  match value with
  | .dict fields => .ok fields
  | _ => reject (fieldName ++ " must be an object")

/-- The copy of an object. -/
def copyObject (value : Value) (fieldName : String) : Except Error Dict := do
  let fields ← requireTaskGraphObject value fieldName
  let _ ← jsonSafeContractCopy (.dict fields) fieldName
  pure fields

/-- `_normalize_required_task_graph_text`. -/
def normalizeRequiredTaskGraphText (value : Value) (fieldName : String) : Except Error String :=
  match value with
  | .str s => if strip s = "" then reject (fieldName ++ " must be non-empty") else .ok (strip s)
  | _ => reject (fieldName ++ " must be a string")

/-- `_normalize_optional_task_graph_text`. -/
def normalizeOptionalTaskGraphText (value : Value) (fieldName : String) :
    Except Error (Option String) :=
  match value with
  | .null => .ok none
  | .str s =>
    if strip s = "" then reject (fieldName ++ " must be non-empty when provided")
    else .ok (some (strip s))
  | _ => reject (fieldName ++ " must be a string or null")

/-! ## Nodes and edges -/

/-- A normalised capability reference. -/
structure CapabilityReference where
  capabilityId : Option String
  name : Option String
  version : Option String
  purpose : Option String
  deriving DecidableEq

def optionalText : Option String → Value
  | none => .null
  | some s => .str s

def CapabilityReference.toDict (r : CapabilityReference) : Dict :=
  [("capability_id", optionalText r.capabilityId), ("name", optionalText r.name),
    ("version", optionalText r.version), ("purpose", optionalText r.purpose)]

/-- `_TASK_GRAPH_CAPABILITY_ALLOWED_FIELDS`. -/
def capabilityAllowedFields : List String := ["capability_id", "name", "version", "purpose"]

/-- `_normalize_task_graph_capability_reference`. -/
def normalizeTaskGraphCapabilityReference (raw : Value) : Except Error CapabilityReference := do
  let reference ← requireTaskGraphObject raw "capability_reference"
  require (∀ f ∈ reference, f.1 ∈ capabilityAllowedFields)
    "capability_reference contains unsupported fields"
  let capabilityId ← normalizeOptionalTaskGraphText (reference.get "capability_id") "capability_id"
  let name ← normalizeOptionalTaskGraphText (reference.get "name") "name"
  require (capabilityId ≠ none ∨ name ≠ none)
    "capability_reference requires capability_id or name"
  let version ← normalizeOptionalTaskGraphText (reference.get "version") "version"
  let purpose ← normalizeOptionalTaskGraphText (reference.get "purpose") "purpose"
  pure ⟨capabilityId, name, version, purpose⟩

/-- `_legacy_v1_capability_reference`. -/
def legacyV1CapabilityReference (node : Dict) : Except Error Value :=
  match node.get "capability_references" with
  | .list (first :: _) => do
    let reference ← requireTaskGraphObject first "capability_references entry"
    pure (.dict (capabilityAllowedFields.map fun key => (key, reference.get key)))
  | _ =>
    match node.get "intended_task_type" with
    | .null => .ok (.dict (capabilityAllowedFields.map fun key => (key, .null)))
    | intendedTaskType => .ok (.dict [("capability_id", .null), ("name", intendedTaskType),
        ("version", .null),
        ("purpose", .str "Legacy v1 intended task type compatibility reference.")])

/-- The capability reference a node is read with. -/
def rawCapabilityReference (legacy : Bool) (node : Dict) : Except Error Value :=
  let first := match node.get "capability_references" with
    | .list (first :: _) => first
    | _ => .null
  match (node.get "capability_reference").orElse first with
  | .null => if legacy then legacyV1CapabilityReference node else .ok .null
  | reference => .ok reference

/-- A normalised node. -/
structure TaskGraphNode where
  nodeKey : String
  title : String
  description : String
  capabilityReference : CapabilityReference
  inputContract : Dict
  outputContract : Dict
  metadata : Dict

def TaskGraphNode.toDict (n : TaskGraphNode) : Dict :=
  [("node_key", .str n.nodeKey), ("key", .str n.nodeKey), ("title", .str n.title),
    ("description", .str n.description),
    ("capability_reference", .dict n.capabilityReference.toDict),
    ("capability_references", .list [.dict n.capabilityReference.toDict]),
    ("input_contract", .dict n.inputContract), ("output_contract", .dict n.outputContract),
    ("metadata", .dict n.metadata)]

/-- `_TASK_GRAPH_NODE_ALLOWED_FIELDS`. -/
def nodeAllowedFields : List String :=
  ["node_key", "key", "title", "description", "capability_reference", "capability_references",
    "input_contract", "output_contract", "metadata"]

/-- `_TASK_GRAPH_LEGACY_V1_NODE_ALLOWED_FIELDS`. -/
def legacyV1NodeAllowedFields : List String :=
  ["key", "name", "intended_task_type", "capability_references", "input_contract",
    "expected_output_contract", "risk_level", "approval_required", "execution_constraints",
    "operator_notes"]

/-- The legacy fields of a node that its metadata keeps, sorted. -/
def legacyV1NodeMetadata : List String :=
  ["approval_required", "execution_constraints", "intended_task_type", "operator_notes",
    "risk_level"]

/-- Legacy fields, copied into the metadata. -/
def keepLegacy (legacy : Bool) (raw metadata : Dict) (names : List String) (fieldName : String) :
    Except Error Dict :=
  if legacy then do
    let kept ← (raw.select names).mapM fun f => do
      let copy ← jsonSafeContractCopy f.2 (fieldName ++ f.1)
      pure (f.1, copy)
    pure (if kept.isEmpty then metadata else metadata.merged "legacy_v1" (.dict kept))
  else pure metadata

/-- The list of references, when it is provided, starts with the reference of the node. -/
def checkCapabilityReferences (references : Value) (capabilityReference : CapabilityReference) :
    Except Error Unit :=
  match references with
  | .null => .ok ()
  | .list (first :: _) => do
    let firstReference ← normalizeTaskGraphCapabilityReference first
    require (firstReference = capabilityReference)
      "capability_reference must match first capability_references entry"
  | _ => reject "capability_references must be a non-empty list when provided"

def nodeTitle (legacy : Bool) (node : Dict) : Value :=
  (node.get "title").orElse (if legacy then node.get "name" else .null)

def nodeDescription (legacy : Bool) (node : Dict) : Value :=
  (node.get "description").orElse <|
    if legacy then
      if (node.get "operator_notes").truthy then node.get "operator_notes" else node.get "name"
    else .null

def nodeOutputContract (legacy : Bool) (node : Dict) : Value :=
  ((node.get "output_contract").orElse
    (if legacy then node.getOr "expected_output_contract" (.dict []) else .null)).orElse (.dict [])

/-- `_normalize_task_graph_node`. -/
def normalizeTaskGraphNode (legacy : Bool) (raw : Value) : Except Error TaskGraphNode := do
  let node ← requireTaskGraphObject raw "node"
  require (∀ f ∈ node, f.1 ∈ nodeAllowedFields ∨ legacy ∧ f.1 ∈ legacyV1NodeAllowedFields)
    "node contains unsupported fields"
  let nodeKey ← normalizeRequiredTaskGraphText ((node.get "node_key").orElse (node.get "key"))
    "node_key"
  let key ← normalizeRequiredTaskGraphText ((node.get "key").orElse (.str nodeKey)) "key"
  require (key = nodeKey) "node_key and key must match when both are provided"
  let title ← normalizeRequiredTaskGraphText (nodeTitle legacy node) "title"
  let description ← normalizeRequiredTaskGraphText (nodeDescription legacy node) "description"
  let rawReference ← rawCapabilityReference legacy node
  let capabilityReference ← normalizeTaskGraphCapabilityReference rawReference
  checkCapabilityReferences (node.get "capability_references") capabilityReference
  let inputContract ← copyObject (node.getOr "input_contract" (.dict [])) "input_contract"
  let outputContract ← copyObject (nodeOutputContract legacy node) "output_contract"
  let metadata ← copyObject (node.getOr "metadata" (.dict [])) "node metadata"
  let metadata ← keepLegacy legacy node metadata legacyV1NodeMetadata "legacy node "
  pure ⟨nodeKey, title, description, capabilityReference, inputContract, outputContract, metadata⟩

/-- A normalised edge. -/
structure TaskGraphEdge where
  fromNodeKey : String
  toNodeKey : String
  dependencyType : String
  metadata : Dict

def TaskGraphEdge.toDict (e : TaskGraphEdge) : Dict :=
  [("from_node_key", .str e.fromNodeKey), ("to_node_key", .str e.toNodeKey),
    ("dependency_type", .str e.dependencyType), ("metadata", .dict e.metadata)]

/-- `_TASK_GRAPH_EDGE_ALLOWED_FIELDS`. -/
def edgeAllowedFields : List String :=
  ["from_node_key", "to_node_key", "dependency_type", "metadata"]

/-- `_normalize_task_graph_edge`. -/
def normalizeTaskGraphEdge (legacy : Bool) (raw : Value) : Except Error TaskGraphEdge := do
  let edge ← requireTaskGraphObject raw "edge"
  require (∀ f ∈ edge, f.1 ∈ edgeAllowedFields ∨ legacy ∧ f.1 = "description")
    "edge contains unsupported fields"
  let metadata ← copyObject (edge.getOr "metadata" (.dict [])) "edge metadata"
  let metadata ← keepLegacy legacy edge metadata ["description"] "legacy edge "
  let fromNodeKey ← normalizeRequiredTaskGraphText (edge.get "from_node_key") "from_node_key"
  let toNodeKey ← normalizeRequiredTaskGraphText (edge.get "to_node_key") "to_node_key"
  let dependencyType ← normalizeRequiredTaskGraphText (edge.get "dependency_type")
    "dependency_type"
  pure ⟨fromNodeKey, toNodeKey, dependencyType, metadata⟩

/-! ## Graphs -/

/-- A normalised graph; the last three fields are those of a legacy graph. -/
structure TaskGraph where
  graphStatus : String
  nodes : List TaskGraphNode
  edges : List TaskGraphEdge
  metadata : Dict
  missionId : Option String
  graphVersion : Option ℤ
  graphFingerprint : Option String

namespace TaskGraph

def toDict (g : TaskGraph) : Dict :=
  [("schema_version", .int 1), ("graph_status", .str g.graphStatus),
    ("nodes", .list (g.nodes.map fun n => .dict n.toDict)),
    ("edges", .list (g.edges.map fun e => .dict e.toDict)), ("metadata", .dict g.metadata)] ++
    (g.missionId.map fun s => ("mission_id", Value.str s)).toList ++
    (g.graphVersion.map fun z => ("graph_version", Value.int z)).toList ++
    (g.graphFingerprint.map fun s => ("graph_fingerprint", Value.str s)).toList

def nodeKeys (g : TaskGraph) : List String := g.nodes.map TaskGraphNode.nodeKey

/-- The adjacency list of a node. -/
def dependents (edges : List TaskGraphEdge) (nodeKey : String) : List String :=
  (edges.filter fun e => e.fromNodeKey = nodeKey).map TaskGraphEdge.toNodeKey

end TaskGraph

/-- The checks of `_validate_task_graph_is_dag` on one edge. -/
def validateEdge (nodeKeys : List String) (edge : TaskGraphEdge) : Except Error Unit := do
  require (edge.fromNodeKey ∈ nodeKeys) "edge source must reference an existing node_key"
  require (edge.toNodeKey ∈ nodeKeys) "edge target must reference an existing node_key"
  require (edge.fromNodeKey ≠ edge.toNodeKey) "edges cannot point a node to itself"

/-- `_validate_task_graph_is_dag`. -/
def validateTaskGraphIsDag (stack : ℕ) (nodeKeys : List String) (edges : List TaskGraphEdge) :
    Except Error Unit := do
  edges.forM (validateEdge nodeKeys)
  match DepthFirst.search (TaskGraph.dependents edges) stack nodeKeys with
  | .ok _ => pure ()
  | .error .cycle => reject "must be a DAG"
  | .error .overflow => .error .recursion

/-- `_TASK_GRAPH_ALLOWED_FIELDS`. -/
def graphAllowedFields : List String :=
  ["schema_version", "graph_status", "nodes", "edges", "metadata"]

/-- `_TASK_GRAPH_LEGACY_V1_ALLOWED_FIELDS`. -/
def legacyV1AllowedFields : List String :=
  ["mission_id", "graph_version", "graph_fingerprint", "operator_notes", "validation_metadata"]

def requireSchemaVersion (version : Value) : Except Error Unit :=
  if version.isOne then .ok ()
  else .error (.value "unsupported mission task graph metadata schema_version")

def normalizeGraphStatus (legacy : Bool) (status : Value) : Except Error String :=
  if legacy then normalizeRequiredTaskGraphText status "graph_status"
  else
    match status with
    | .str "draft" => .ok "draft"
    | _ => reject "graph_status must be draft"

def requireList (value : Value) (fieldName : String) : Except Error (List Value) :=
  match value with
  | .list items => .ok items
  | _ => reject (fieldName ++ " must be a list")

/-- A text of a legacy graph, where the field is present. -/
def legacyText (legacy : Bool) (graph : Dict) (fieldName : String) : Except Error (Option String) :=
  if legacy then
    match graph.lookup fieldName with
    | none => .ok none
    | some value => do
      let text ← normalizeRequiredTaskGraphText value fieldName
      pure (some text)
  else .ok none

def legacyVersion (legacy : Bool) (graph : Dict) : Except Error (Option ℤ) :=
  if legacy then
    match graph.lookup "graph_version" with
    | none => .ok none
    | some (.int z) => if z < 1 then reject "graph_version must be a positive integer" else .ok z
    | some _ => reject "graph_version must be a positive integer"
  else .ok none

/-- `normalize_mission_task_graph_contract_metadata`. -/
def normalizeMissionTaskGraphContractMetadata (stack : ℕ) (legacy : Bool) (metadata : Value) :
    Except Error TaskGraph := do
  let copy ← jsonSafeContractCopy metadata "metadata"
  let graph ← requireTaskGraphObject copy "metadata"
  require (∀ f ∈ graph, f.1 ∈ graphAllowedFields ∨ legacy ∧ f.1 ∈ legacyV1AllowedFields)
    "metadata contains unsupported fields"
  requireSchemaVersion (graph.get "schema_version")
  let graphStatus ← normalizeGraphStatus legacy (graph.get "graph_status")
  let rawNodes ← requireList (graph.get "nodes") "nodes"
  let rawEdges ← requireList ((graph.get "edges").orElse (.list [])) "edges"
  let nodes ← rawNodes.mapM (normalizeTaskGraphNode legacy)
  let nodeKeys := nodes.map TaskGraphNode.nodeKey
  require nodeKeys.Nodup "node_key values must be unique"
  let edges ← rawEdges.mapM (normalizeTaskGraphEdge legacy)
  validateTaskGraphIsDag stack nodeKeys edges
  let graphMetadata ← copyObject (graph.getOr "metadata" (.dict [])) "graph metadata"
  let graphMetadata ← keepLegacy legacy graph graphMetadata
    ["operator_notes", "validation_metadata"] "legacy graph "
  let missionId ← legacyText legacy graph "mission_id"
  let graphVersion ← legacyVersion legacy graph
  let graphFingerprint ← legacyText legacy graph "graph_fingerprint"
  pure ⟨graphStatus, nodes, edges, graphMetadata, missionId, graphVersion, graphFingerprint⟩

end Ajenda.TaskGraphs
