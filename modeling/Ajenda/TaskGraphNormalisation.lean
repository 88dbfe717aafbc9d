import Ajenda.TaskGraphForm

/-!
# Which task graphs are accepted

A graph is returned exactly when it is well formed, its keys are unique, its edges join its
nodes, its dependencies have no cycle, and the search for one fits on the stack. A chain with
one node more than the stack has frames is refused, although it is none of what the
docstring of the normaliser rejects.
-/
namespace Ajenda.TaskGraphs
open Ajenda.Runtime (Error bind_eq_ok strip)
open Ajenda.Experience (strip_of_trimmed)
open DepthFirst (Acyclic Nested)
open Relation

section Dag
variable {stack : ℕ} {nodeKeys : List String} {edges : List TaskGraphEdge}

theorem mem_dependents {v u : String} :
    u ∈ TaskGraph.dependents edges v ↔ ∃ e ∈ edges, e.fromNodeKey = v ∧ e.toNodeKey = u := by
  simp [TaskGraph.dependents, and_assoc]

theorem forM_eq_ok {α : Type} {f : α → Except Error Unit} {xs : List α} {u : Unit} :
    xs.forM f = .ok u ↔ ∀ x ∈ xs, f x = .ok () := by
  induction xs with
  | nil => exact iff_of_true rfl (by simp)
  | cons x xs ih =>
    have hcons : (x :: xs).forM f = f x >>= fun _ => xs.forM f := rfl
    rw [hcons, bind_eq_ok, List.forall_mem_cons, ← ih]
    constructor
    · rintro ⟨_, hx, hxs⟩
      exact ⟨hx, hxs⟩
    · rintro ⟨hx, hxs⟩
      exact ⟨(), hx, hxs⟩

theorem bind_of_ok {α β : Type} {x : Except Error α} {a : α} {f : α → Except Error β}
    (h : x = .ok a) : (x >>= f) = f a := by
  rw [h]
  rfl

theorem validateEdge_eq_ok {e : TaskGraphEdge} {u : Unit} :
    validateEdge nodeKeys e = .ok u ↔
      (e.fromNodeKey ∈ nodeKeys ∧ e.toNodeKey ∈ nodeKeys) ∧ e.fromNodeKey ≠ e.toNodeKey := by
  unfold validateEdge
  simp [bind_eq_ok, require_eq_ok, and_assoc]

/-- The cycle check passes exactly on the acyclic graphs it can search. -/
theorem validateTaskGraphIsDag_eq_ok {u : Unit} :
    validateTaskGraphIsDag stack nodeKeys edges = .ok u ↔
      (∀ e ∈ edges, e.fromNodeKey ∈ nodeKeys ∧ e.toNodeKey ∈ nodeKeys) ∧
        Acyclic (TaskGraph.dependents edges) ∧
        ¬Nested (TaskGraph.dependents edges) ∅ nodeKeys (stack + 1) := by
  unfold validateTaskGraphIsDag
  simp only [bind_eq_ok, forM_eq_ok, validateEdge_eq_ok]
  constructor
  · rintro ⟨-, hedges, h⟩
    have hends := fun e he => (hedges e he).1
    cases hsearch : DepthFirst.search (TaskGraph.dependents edges) stack nodeKeys with
    | error failure =>
      rw [hsearch] at h
      cases failure <;> cases h
    | ok marks =>
      have hacyclic : Acyclic (TaskGraph.dependents edges) := by
        intro v hcycle
        -- a cycle starts at the source of an edge, and the search has left every source
        obtain ⟨w, hw, -⟩ := TransGen.head'_iff.1 hcycle
        obtain ⟨e, he, rfl, -⟩ := mem_dependents.1 hw
        exact DepthFirst.search_acyclic hsearch (hends e he).1 hcycle
      exact ⟨hends, hacyclic, (DepthFirst.search_returns_iff hacyclic nodeKeys).1 ⟨marks, hsearch⟩⟩
  · rintro ⟨hends, hacyclic, hfits⟩
    obtain ⟨marks, hsearch⟩ := (DepthFirst.search_returns_iff hacyclic nodeKeys).2 hfits
    refine ⟨(), fun e he => ⟨hends e he, fun hloop => ?_⟩, ?_⟩
    · exact hacyclic e.fromNodeKey (.single (mem_dependents.2 ⟨e, he, rfl, hloop.symm⟩))
    · rw [hsearch]
      rfl

end Dag

section Normalisation
variable {stack : ℕ} {legacy : Bool} {metadata : Value} {g : TaskGraph}

/-- The metadata is well formed and `g` is its normal form. -/
def WellFormed (legacy : Bool) (metadata : Value) (g : TaskGraph) : Prop :=
  metadata.jsonSafe = true ∧ ∃ graph, metadata = .dict graph ∧ GraphForm legacy graph g

/-- The keys are unique, the edges join nodes and the dependencies are acyclic. -/
structure TaskGraph.Sound (g : TaskGraph) : Prop where
  unique : g.nodeKeys.Nodup
  ends : ∀ e ∈ g.edges, e.fromNodeKey ∈ g.nodeKeys ∧ e.toNodeKey ∈ g.nodeKeys
  acyclic : Acyclic (TaskGraph.dependents g.edges)

/-- Calls of `visit` for `g` nest deeper than the stack. -/
def TaskGraph.Deep (stack : ℕ) (g : TaskGraph) : Prop :=
  Nested (TaskGraph.dependents g.edges) ∅ g.nodeKeys (stack + 1)

theorem jsonSafe_parts {graph : Dict} (hsafe : (Value.dict graph).jsonSafe = true) :
    (graph.get "nodes").jsonSafe = true ∧
      ((graph.get "edges").orElse (.list [])).jsonSafe = true ∧
      (graph.getOr "metadata" (.dict [])).jsonSafe = true :=
  ⟨jsonSafe_get hsafe, jsonSafe_orElse (jsonSafe_get hsafe) rfl, jsonSafe_getOr hsafe rfl⟩

theorem mapM_nodes {items : List Value} (hsafe : (Value.list items).jsonSafe = true)
    (nodes : List TaskGraphNode) :
    items.mapM (normalizeTaskGraphNode legacy) = .ok nodes ↔
      ObjectsForm (NodeForm legacy) items nodes := by
  refine mapM_objects (fun v n h => ?_) (fun d n => normalizeTaskGraphNode_eq_ok) hsafe nodes
  obtain ⟨d, hd, -⟩ := bind_eq_ok.1 h
  exact ⟨d, requireTaskGraphObject_eq_ok.1 hd⟩

theorem mapM_edges {items : List Value} (hsafe : (Value.list items).jsonSafe = true)
    (edges : List TaskGraphEdge) :
    items.mapM (normalizeTaskGraphEdge legacy) = .ok edges ↔
      ObjectsForm (EdgeForm legacy) items edges := by
  refine mapM_objects (fun v e h => ?_) (fun d e => normalizeTaskGraphEdge_eq_ok) hsafe edges
  obtain ⟨d, hd, -⟩ := bind_eq_ok.1 h
  exact ⟨d, requireTaskGraphObject_eq_ok.1 hd⟩

theorem normalize_eq_ok :
    normalizeMissionTaskGraphContractMetadata stack legacy metadata = .ok g ↔
      WellFormed legacy metadata g ∧ g.Sound ∧ ¬g.Deep stack := by
  unfold normalizeMissionTaskGraphContractMetadata
  simp only [bind_eq_ok, jsonSafeContractCopy_eq_ok, requireTaskGraphObject_eq_ok, require_eq_ok,
    requireSchemaVersion_eq_ok, normalizeGraphStatus_eq_ok, requireList_eq_ok,
    validateTaskGraphIsDag_eq_ok, legacyText_eq_ok, legacyVersion_eq_ok]
  constructor
  · rintro ⟨_, ⟨hsafe, rfl⟩, graph, rfl, -, hfields, -, hschema, status, ⟨hstatus, hdraft⟩, rawNodes,
      hrawNodes, rawEdges, hrawEdges, nodes, hnodes, -, hunique, edges, hedges, -,
      ⟨hends, hacyclic, hfits⟩, metadata, hmetadata, kept, hkept, missionId, hid, version, hversion,
      fingerprint, hprint, h⟩
    obtain ⟨hsafeNodes, hsafeEdges, hsafeMetadata⟩ := jsonSafe_parts hsafe
    rw [mapM_nodes (hrawNodes ▸ hsafeNodes)] at hnodes
    rw [mapM_edges (hrawEdges ▸ hsafeEdges)] at hedges
    rw [copyObject_eq_ok hsafeMetadata] at hmetadata
    rw [keepLegacy_eq hsafe] at hkept
    obtain rfl := Except.ok.inj hkept
    obtain rfl := Except.ok.inj h
    exact ⟨⟨hsafe, graph, rfl, hfields, hschema, hstatus, hdraft, ⟨rawNodes, hrawNodes, hnodes⟩,
      ⟨rawEdges, hrawEdges, hedges⟩, ⟨metadata, hmetadata, rfl⟩, hid, hversion, hprint⟩,
      ⟨hunique, hends, hacyclic⟩, hfits⟩
  · rintro ⟨⟨hsafe, graph, rfl, h⟩, hsound, hfits⟩
    obtain ⟨hsafeNodes, hsafeEdges, hsafeMetadata⟩ := jsonSafe_parts hsafe
    obtain ⟨rawNodes, hrawNodes, hnodes⟩ := h.nodes
    obtain ⟨rawEdges, hrawEdges, hedges⟩ := h.edges
    obtain ⟨metadata, hmetadata, hkept⟩ := h.metadata
    refine ⟨_, ⟨hsafe, rfl⟩, graph, rfl, (), h.fields, (), h.schemaVersion, _,
      ⟨h.graphStatus, h.draft⟩, rawNodes, hrawNodes, rawEdges, hrawEdges, _,
      (mapM_nodes (hrawNodes ▸ hsafeNodes) _).2 hnodes, (), hsound.unique, _,
      (mapM_edges (hrawEdges ▸ hsafeEdges) _).2 hedges, (), ⟨hsound.ends, hsound.acyclic, hfits⟩,
      metadata, (copyObject_eq_ok hsafeMetadata).2 hmetadata, _, keepLegacy_eq hsafe, _, h.missionId,
      _, h.graphVersion, _, h.graphFingerprint, ?_⟩
    rw [← hkept]
    rfl

/-- What is returned is returned again. -/
theorem normalize_again (h : normalizeMissionTaskGraphContractMetadata stack legacy metadata = .ok g) :
    normalizeMissionTaskGraphContractMetadata stack legacy (.dict g.toDict) = .ok g := by
  rw [normalize_eq_ok] at h ⊢
  obtain ⟨⟨hsafe, graph, rfl, hform⟩, hsound, hfits⟩ := h
  exact ⟨⟨hform.jsonSafe hsafe, _, rfl, hform.toDict⟩, hsound, hfits⟩

/-- A sound graph that is too deep is refused by the interpreter's recursion limit. -/
theorem normalize_deep (hform : WellFormed legacy metadata g) (hsound : g.Sound)
    (hdeep : g.Deep stack) :
    normalizeMissionTaskGraphContractMetadata stack legacy metadata = .error .recursion := by
  obtain ⟨hsafe, graph, rfl, h⟩ := hform
  obtain ⟨hsafeNodes, hsafeEdges, -⟩ := jsonSafe_parts hsafe
  obtain ⟨rawNodes, hrawNodes, hnodes⟩ := h.nodes
  obtain ⟨rawEdges, hrawEdges, hedges⟩ := h.edges
  have hcheck : validateTaskGraphIsDag stack g.nodeKeys g.edges = .error .recursion := by
    have hends : g.edges.forM (validateEdge g.nodeKeys) = .ok () := by
      refine forM_eq_ok.2 fun e he => validateEdge_eq_ok.2 ⟨hsound.ends e he, fun hloop => ?_⟩
      exact hsound.acyclic e.fromNodeKey (.single (mem_dependents.2 ⟨e, he, rfl, hloop.symm⟩))
    rw [validateTaskGraphIsDag, hends, DepthFirst.search_overflow hsound.acyclic hdeep]
    rfl
  refine (bind_of_ok (jsonSafeContractCopy_eq_ok.2 ⟨hsafe, rfl⟩)).trans ?_
  refine (bind_of_ok (requireTaskGraphObject_eq_ok.2 rfl)).trans ?_
  refine (bind_of_ok (a := ()) (require_eq_ok.2 h.fields)).trans ?_
  refine (bind_of_ok (a := ()) (requireSchemaVersion_eq_ok.2 h.schemaVersion)).trans ?_
  refine (bind_of_ok (normalizeGraphStatus_eq_ok.2 ⟨h.graphStatus, h.draft⟩)).trans ?_
  refine (bind_of_ok (requireList_eq_ok.2 hrawNodes)).trans ?_
  refine (bind_of_ok (requireList_eq_ok.2 hrawEdges)).trans ?_
  refine (bind_of_ok ((mapM_nodes (hrawNodes ▸ hsafeNodes) _).2 hnodes)).trans ?_
  refine (bind_of_ok (a := ()) (require_eq_ok.2 hsound.unique)).trans ?_
  refine (bind_of_ok ((mapM_edges (hrawEdges ▸ hsafeEdges) _).2 hedges)).trans ?_
  change (validateTaskGraphIsDag stack g.nodeKeys g.edges >>= _) = _
  rw [hcheck]
  rfl

/-- Only the well-formed, sound graphs are returned, and all of them, unless one is too deep. -/
theorem normalisation_exact_iff (stack : ℕ) (legacy : Bool) (metadata : Value) :
    ((∀ g, normalizeMissionTaskGraphContractMetadata stack legacy metadata = .ok g →
        g.Sound ∧
          normalizeMissionTaskGraphContractMetadata stack legacy (.dict g.toDict) = .ok g) ∧
      ∀ g, WellFormed legacy metadata g → g.Sound →
        normalizeMissionTaskGraphContractMetadata stack legacy metadata = .ok g) ↔
      ∀ g, WellFormed legacy metadata g → g.Sound → ¬g.Deep stack := by
  constructor
  · rintro ⟨-, hreturned⟩ g hform hsound
    exact (normalize_eq_ok.1 (hreturned g hform hsound)).2.2
  · intro hshallow
    refine ⟨fun g h => ⟨(normalize_eq_ok.1 h).2.1, normalize_again h⟩, fun g hform hsound => ?_⟩
    exact normalize_eq_ok.2 ⟨hform, hsound, hshallow g hform hsound⟩

/-- Depth is bounded by the longest path. -/
theorem not_deep_of_short (h : ∀ path : List String,
    path.IsChain (DepthFirst.Edge (TaskGraph.dependents g.edges)) → path.length ≤ stack) :
    ¬g.Deep stack := by
  intro hdeep
  obtain ⟨path, hlength, hchain, -⟩ := hdeep.path
  have hshort := h path hchain
  omega

end Normalisation

/-! ## A chain -/

section Chain

/-- The key of a node of the chain: its place in unary. -/
def chainKey (i : ℕ) : String := String.ofList (List.replicate (i + 1) 'n')

def chainNode (i : ℕ) : TaskGraphNode where
  nodeKey := chainKey i
  title := "Step"
  description := "One step of the plan."
  capabilityReference := ⟨some "agent.run", none, none, none⟩
  inputContract := []
  outputContract := []
  metadata := []

def chainEdge (i : ℕ) : TaskGraphEdge where
  fromNodeKey := chainKey i
  toNodeKey := chainKey (i + 1)
  dependencyType := "finish_to_start"
  metadata := []

/-- `length + 1` nodes, each with an edge to the next. -/
def chain (length : ℕ) : TaskGraph where
  graphStatus := "draft"
  nodes := (List.range (length + 1)).map chainNode
  edges := (List.range length).map chainEdge
  metadata := []
  missionId := none
  graphVersion := none
  graphFingerprint := none

variable {length : ℕ}

theorem chainKey_length (i : ℕ) : (chainKey i).length = i + 1 := by
  simp [chainKey]

theorem chainKey_injective : Function.Injective chainKey := by
  intro i j h
  have hlength := congrArg String.length h
  rw [chainKey_length, chainKey_length] at hlength
  omega

theorem chainKey_stripped (i : ℕ) : Stripped (chainKey i) := by
  have hchar : ∀ c ∈ (chainKey i).toList, Ajenda.Runtime.isSpace c = false := by
    intro c hc
    simp only [chainKey, String.toList_ofList, List.mem_replicate] at hc
    rw [hc.2]
    decide
  refine ⟨strip_of_trimmed ⟨fun c hc => hchar c (List.mem_of_mem_head? hc), fun c hc =>
    hchar c (List.mem_of_getLast? hc)⟩, fun hempty => ?_⟩
  have hlength := chainKey_length i
  rw [hempty] at hlength
  cases hlength

theorem chainNode_form (legacy : Bool) (i : ℕ) :
    NodeForm legacy (chainNode i).toDict (chainNode i) := by
  have hkey : Text (.str (chainKey i)) (chainKey i) := (chainKey_stripped i).text
  have hreference : CapabilityForm (chainNode i).capabilityReference.toDict
      (chainNode i).capabilityReference := by
    refine ⟨?_, .inr ⟨_, rfl, ⟨_, rfl, by decide, by decide⟩⟩, .inl ⟨rfl, rfl⟩, .inl nofun,
      .inl ⟨rfl, rfl⟩, .inl ⟨rfl, rfl⟩⟩
    simp [CapabilityReference.toDict, capabilityAllowedFields]
  have htitle : Stripped "Step" := ⟨by decide, by decide⟩
  have hdescription : Stripped "One step of the plan." := ⟨by decide, by decide⟩
  refine ⟨?_, hkey, hkey, htitle.text, hdescription.text, ⟨_, rfl, hreference⟩,
    .inr ⟨_, [], _, rfl, rfl, hreference⟩, rfl, rfl, [], rfl, ?_⟩
  · simp [TaskGraphNode.toDict, nodeAllowedFields]
  · rw [keptMetadata_of_lookup]
    · rfl
    · simp [legacyV1NodeMetadata, TaskGraphNode.toDict, List.lookup_cons]

theorem chainEdge_form (legacy : Bool) (i : ℕ) :
    EdgeForm legacy (chainEdge i).toDict (chainEdge i) := by
  have htype : Stripped "finish_to_start" := ⟨by decide, by decide⟩
  refine ⟨?_, ⟨[], rfl, ?_⟩, (chainKey_stripped i).text, (chainKey_stripped (i + 1)).text,
    htype.text⟩
  · simp [TaskGraphEdge.toDict, edgeAllowedFields]
  · rw [keptMetadata_of_lookup]
    · rfl
    · simp [TaskGraphEdge.toDict, List.lookup_cons]

theorem chain_wellFormed (legacy : Bool) (length : ℕ) :
    WellFormed legacy (.dict (chain length).toDict) (chain length) := by
  have hnodes : ObjectsForm (NodeForm legacy)
      ((chain length).nodes.map fun n => .dict n.toDict) (chain length).nodes := by
    refine objectsForm_map TaskGraphNode.toDict fun n hn => ?_
    obtain ⟨i, -, rfl⟩ := List.mem_map.1 hn
    exact chainNode_form legacy i
  have hedges : ObjectsForm (EdgeForm legacy)
      ((chain length).edges.map fun e => .dict e.toDict) (chain length).edges := by
    refine objectsForm_map TaskGraphEdge.toDict fun e he => ?_
    obtain ⟨i, -, rfl⟩ := List.mem_map.1 he
    exact chainEdge_form legacy i
  have hdraft : Stripped "draft" := ⟨by decide, by decide⟩
  have hsafe : (Value.dict (chain length).toDict).jsonSafe = true := by
    have hsafeNodes : (Value.list ((chain length).nodes.map fun n => .dict n.toDict)).jsonSafe =
        true := by
      refine jsonSafeItems_iff.2 fun v hv => ?_
      obtain ⟨n, hn, rfl⟩ := List.mem_map.1 hv
      obtain ⟨i, -, rfl⟩ := List.mem_map.1 hn
      rfl
    have hsafeEdges : (Value.list ((chain length).edges.map fun e => .dict e.toDict)).jsonSafe =
        true := by
      refine jsonSafeItems_iff.2 fun v hv => ?_
      obtain ⟨e, he, rfl⟩ := List.mem_map.1 hv
      obtain ⟨i, -, rfl⟩ := List.mem_map.1 he
      rfl
    exact (chain length).jsonSafe_toDict hsafeNodes hsafeEdges rfl
  refine ⟨hsafe, _, rfl, ?_, rfl, hdraft.text, fun _ => rfl, ⟨_, rfl, hnodes⟩, ⟨_, rfl, hedges⟩,
    ⟨[], rfl, ?_⟩, .absent rfl, .absent rfl, .absent rfl⟩
  · simp [TaskGraph.toDict, chain, graphAllowedFields]
  · rw [keptMetadata_of_lookup (chain length).lookup_absent]
    rfl

theorem dependents_chain {i : ℕ} (hi : i < length) :
    TaskGraph.dependents (chain length).edges (chainKey i) = [chainKey (i + 1)] := by
  have hfilter : (List.range length).filter (fun j => chainKey j = chainKey i) = [i] := by
    have hkey : (fun j => decide (chainKey j = chainKey i)) = fun j => j == i := by
      funext j
      rw [Bool.eq_iff_iff]
      simp [chainKey_injective.eq_iff]
    rw [hkey, List.filter_beq, List.count_eq_one_of_mem List.nodup_range (List.mem_range.2 hi)]
    rfl
  have hedges : (List.range length).filter ((fun e : TaskGraphEdge => e.fromNodeKey = chainKey i) ∘
      chainEdge) = [i] := hfilter
  rw [TaskGraph.dependents, chain, List.filter_map, hedges]
  rfl

theorem chain_sound (length : ℕ) : (chain length).Sound := by
  have hkeys : (chain length).nodeKeys = (List.range (length + 1)).map chainKey := by
    simp [TaskGraph.nodeKeys, chain, chainNode, Function.comp_def]
  refine ⟨?_, fun e he => ?_, DepthFirst.acyclic_of_rank String.length fun v u hu => ?_⟩
  · rw [hkeys]
    exact List.nodup_range.map chainKey_injective
  · obtain ⟨i, hi, rfl⟩ := List.mem_map.1 he
    rw [hkeys]
    rw [List.mem_range] at hi
    exact ⟨List.mem_map_of_mem (List.mem_range.2 (by omega)),
      List.mem_map_of_mem (List.mem_range.2 (by omega))⟩
  · obtain ⟨e, he, rfl, rfl⟩ := mem_dependents.1 hu
    obtain ⟨i, -, rfl⟩ := List.mem_map.1 he
    simp only [chainEdge, chainKey_length]
    omega

/-- The calls for the nodes from `i` on are nested in each other. -/
theorem nested_chain {i n : ℕ} (h : i + n = length) (calls : List String) :
    Nested (TaskGraph.dependents (chain length).edges) ∅ (chainKey i :: calls) (n + 1) := by
  induction n generalizing i calls with
  | zero => exact .here
  | succ n ih =>
    refine .deeper (Set.notMem_empty _) ?_
    rw [dependents_chain (by omega)]
    exact ih (by omega) []

theorem chain_deep (length : ℕ) : (chain length).Deep length := by
  have hfirst : (chain length).nodeKeys = chainKey 0 ::
      ((List.range length).map Nat.succ).map chainKey := by
    simp [TaskGraph.nodeKeys, chain, chainNode, Function.comp_def, List.range_succ_eq_map]
  rw [TaskGraph.Deep, hfirst]
  exact nested_chain (Nat.zero_add length) _

/-- On the default stack of the interpreter a chain of 1001 nodes is refused. -/
theorem long_chain_refused :
    (WellFormed false (.dict (chain 1000).toDict) (chain 1000) ∧ (chain 1000).Sound) ∧
      normalizeMissionTaskGraphContractMetadata 1000 false (.dict (chain 1000).toDict) =
        .error .recursion :=
  ⟨⟨chain_wellFormed false 1000, chain_sound 1000⟩,
    normalize_deep (chain_wellFormed false 1000) (chain_sound 1000) (chain_deep 1000)⟩

end Chain
end Ajenda.TaskGraphs
