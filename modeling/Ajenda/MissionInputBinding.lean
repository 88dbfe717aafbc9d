import Ajenda.RuntimeState

/-!
# Graph keys and dependencies of a task

How a claim finds the prerequisites of a task: the functions of `mission_input_binding` that
read graph keys and dependency keys, index the tasks of a mission and list the keys that are
not completed yet.
-/
namespace Ajenda.Runtime
open JsonValue

/-- The characters `str.strip` removes. -/
def isSpace (c : Char) : Bool :=
  let n := c.toNat
  (9 ≤ n && n ≤ 13) || (28 ≤ n && n ≤ 32) || n = 0x85 || n = 0xA0 || n = 0x1680 ||
    (0x2000 ≤ n && n ≤ 0x200A) || n = 0x2028 || n = 0x2029 || n = 0x202F || n = 0x205F ||
    n = 0x3000

/-- `str.strip`. -/
def strip (s : String) : String :=
  String.ofList ((s.toList.dropWhile isSpace).reverse.dropWhile isSpace).reverse

/-- A text that is not blank, stripped. -/
def nonBlank : Option Json → Option String
  | some (.str raw) => if strip raw = "" then none else some (strip raw)
  | _ => none

/-- `graph_node_key_for_task`. -/
def graphNodeKeyForTask (task : ExecutionTask) : Option String :=
  (nonBlank (Fields.get task.metadata "graph_node_key")).or
    (nonBlank ((Fields.get task.metadata "materialization_selection_reference").bind
      (·.field "node_key")))

/-- `dependency_keys_for_task`. -/
def dependencyKeysForTask (task : ExecutionTask) : List String :=
  match Fields.get task.metadata "dependency_keys" with
  | some (.arr items) => items.filterMap fun item => nonBlank (some item)
  | _ => []

/-- `handler_output_for_task`. -/
def handlerOutputForTask (task : ExecutionTask) : Fields :=
  match (Fields.get task.metadata "handler_result").bind (·.field "output") with
  | some (.obj nested) => nested
  | _ =>
    match Fields.get task.metadata "output" with
    | some (.obj nested) =>
      if (Fields.get nested "handler").isNone ∧ (Fields.get nested "schema_version").isNone then
        nested
      else
        match Fields.get nested "output" with
        | some (.obj inner) => inner
        | _ => []
    | _ => []

/-- The rank by which the index prefers a task: completed first, then the richer output. -/
def indexRank (task : ExecutionTask) : ℕ × ℕ :=
  (if task.status = .completed then 1 else 0, (handlerOutputForTask task).length)

def outranks (candidate existing : ExecutionTask) : Bool :=
  let c := indexRank candidate
  let e := indexRank existing
  e.1 < c.1 || (e.1 = c.1 && e.2 < c.2)

/-- `index_mission_tasks_by_node_key`, read at one key. -/
def indexedTask (tasks : List ExecutionTask) (key : String) : Option ExecutionTask :=
  (tasks.filter fun t => graphNodeKeyForTask t = some key).foldl (fun existing candidate =>
    match existing with
    | none => some candidate
    | some existing => some (if outranks candidate existing then candidate else existing)) none

/-- `pending_dependency_keys`. -/
def pendingDependencyKeys (task : ExecutionTask) (tasks : List ExecutionTask) : List String :=
  (dependencyKeysForTask task).filter fun key =>
    match indexedTask tasks key with
    | some upstream => upstream.status ≠ .completed
    | none => true

end Ajenda.Runtime
