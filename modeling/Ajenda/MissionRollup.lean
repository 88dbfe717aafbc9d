import Ajenda.RuntimeQueueDispatcher

/-!
# The mission rollup

`maybeRollupMissionStatus` runs in the transaction of every finished task. It re-admits the
dependents that became possible, blocks those that became impossible and starts over, and
moves the mission on. The parts of the evaluation that are pure functions of the rows and
lie outside the rollup are fields of `Env`, and so is the depth at which the interpreter
stops a recursion.
-/
namespace Ajenda.Runtime
open JsonValue KeyedRows

structure Env where
  /-- `str` on a JSON value that is no string. -/
  text : Json → String
  recursionLimit : ℕ
  /-- `refresh_deliverable_completion_metadata`: no metadata when there is nothing to refresh. -/
  refreshDeliverable : Fields → List ExecutionTask → Option Fields
  /-- `_validate_declared_output_contract`. -/
  validateDeclaredOutput : ExecutionTask → Option Fields → Except Error Unit
  /-- `build_tool_action_evidence_records`. -/
  toolActionEvidence : ExecutionTask → WorkerLease → Fields → Except Error (List EvidenceRecord)
  /-- `_observe_acceptance_reasons`. -/
  observeAcceptanceReasons : List ExecutionTask → Bool → Except Error (List String)
  /-- `evaluate_mission_acceptance`. -/
  evaluateMissionAcceptance : List ExecutionTask → Fields → Except Error (Bool × List String)
  /-- `evaluate_runtime_artifact_completeness`. -/
  artifactCompleteness : ℕ → ℕ → Bool → List String → List String → Json

section Graph
variable (env : Env)

def pyStr : Json → String
  | .str s => s
  | v => env.text v

/-- The raw graph key by which the rollup files a task. -/
def ExecutionTask.graphNodeKey (task : ExecutionTask) : Option String :=
  match Fields.get task.metadata "graph_node_key" with
  | some (.str key) => some key
  | _ => none

/-- `node_tasks.get(key)`: the last task filed under the key. -/
def nodeTask (siblings : List ExecutionTask) (key : String) : Option ExecutionTask :=
  siblings.reverse.find? fun t => t.graphNodeKey = some key

def ExecutionTask.dependencyKeys (task : ExecutionTask) : Option (List Json) :=
  match Fields.get task.metadata "dependency_keys" with
  | some (.arr keys) => some keys
  | _ => none

/-- The rollup's test: there are dependencies and each is filed and completed. -/
def dependenciesCompleted (siblings : List ExecutionTask) (task : ExecutionTask) : Bool :=
  match task.dependencyKeys with
  | some (key :: keys) => (key :: keys).all fun k =>
      match nodeTask siblings (pyStr env k) with
      | some dependency => dependency.status = .completed
      | none => false
  | _ => false

def ExecutionTask.blockedByDependencyFailure (task : ExecutionTask) : Option (List Json) :=
  match Fields.get task.metadata "blocked_by_dependency_failure",
    Fields.get task.metadata "failure" with
  | some (.arr (key :: keys)), some (.obj failure) =>
      if Fields.get failure "code" = some (.str "DEPENDENCY_FAILED") then some (key :: keys)
      else none
  | _, _ => none

/-- A dependent that this rollup blocked and whose dependencies have all completed. -/
def recoverable (siblings : List ExecutionTask) (task : ExecutionTask) : Bool :=
  task.status = .blocked && task.blockedByDependencyFailure.isSome &&
    dependenciesCompleted env siblings task

def fieldOr (metadata : Fields) (key : String) : Json := (Fields.get metadata key).getD .null

/-- The last twenty entries of a history list with one more entry. -/
def extendHistory (history : Option Json) (entry : Json) : Json :=
  let items := match history with
    | some (.arr items) => items ++ [entry]
    | _ => [entry]
  .arr (items.drop (items.length - 20))

def recoverDependent (now : String) (task : ExecutionTask) : ExecutionTask :=
  let blockedBy := task.blockedByDependencyFailure.getD []
  let entry : Json := .obj [
    ("blocked_by_dependency_failure", .arr (blockedBy.map fun k => .str (pyStr env k))),
    ("failure", fieldOr task.metadata "failure"), ("recovered_at", .str now)]
  let history := extendHistory (Fields.get task.metadata "dependency_block_history") entry
  { task with
    status := .queued
    metadata := Fields.set (Fields.pop (Fields.pop task.metadata "blocked_by_dependency_failure")
      "failure") "dependency_block_history" history }

def ExecutionTask.dependencyDeferred (task : ExecutionTask) : Bool :=
  match Fields.get task.metadata "dependency_deferral" with
  | some (.obj _) => true
  | _ => false

/-- A deferred dependent whose dependencies have all completed. -/
def redispatchable (siblings : List ExecutionTask) (task : ExecutionTask) : Bool :=
  task.status = .queued && task.dependencyDeferred && dependenciesCompleted env siblings task

def redispatchDependent (now : String) (task : ExecutionTask) : ExecutionTask :=
  { task with
    metadata := Fields.set (Fields.pop task.metadata "dependency_deferral")
      "dependency_redispatched_at" (.str now) }

/-- `failed_node_keys`. -/
def failedNodeKeys (siblings : List ExecutionTask) : List String :=
  (siblings.filter fun t => t.status.failedish).filterMap ExecutionTask.graphNodeKey

/-- The failed keys among the dependencies of a task. -/
def failedDependencies (failedKeys : List String) (task : ExecutionTask) : List String :=
  match task.dependencyKeys with
  | some keys => (keys.map (pyStr env)).filter (· ∈ failedKeys)
  | none => []

def blockable (failedKeys : List String) (task : ExecutionTask) : Bool :=
  (task.status = .planned || task.status = .queued || task.status = .claimed) &&
    !(failedDependencies env failedKeys task).isEmpty

def blockDependent (failedKeys : List String) (task : ExecutionTask) : ExecutionTask :=
  let keys := (failedDependencies env failedKeys task).dedup.insertionSort (· ≤ ·)
  { task with
    status := .blocked
    metadata := Fields.set (Fields.set task.metadata "blocked_by_dependency_failure"
      (.arr (keys.map .str)))
      "failure" (.obj [("code", .str "DEPENDENCY_FAILED"), ("retryable", .bool false)]) }

end Graph

/-- Save a changed dependent and re-arm its dispatch. -/
def readmitTask (amb : Ambient) (change : ExecutionTask → ExecutionTask) (s : Session)
    (task : ExecutionTask) : Except Error Session :=
  retry amb (s.saveTask (change task)) (change task)

/-- `_reconcile_review_holds` on one mission: a running mission without executable tasks is
paused when a task waits for review. -/
def reconcileReviewHold (db : Db) (now : String) (mission : Mission) : Mission :=
  let tasks := db.tasks.list.filter fun t =>
    t.tenantId = mission.tenantId ∧ t.missionId = mission.id
  let pendingReview := tasks.countP fun t => t.status = .pendingReview
  let active := tasks.countP fun t => t.status ∈ [ExecutionTaskState.planned, .queued, .claimed,
    .running, .recovering]
  if mission.status = .running ∧ 0 < pendingReview ∧ active = 0 then
    { mission with
      status := .paused
      metadata := Fields.set mission.metadata "runtime_reconciliation" (.obj [
        ("schema_version", natJson 1), ("reason", .str "review_hold_without_active_tasks"),
        ("previous_status", .str "running"), ("pending_review_task_count", natJson pendingReview),
        ("reconciled_at", .str now)]) }
  else mission

/-- `get_for_tenant`. -/
def getMissionForTenant (s : Session) (now missionId tenantId : String) :
    Option (Session × Mission) :=
  match s.db.missions.get missionId with
  | none => none
  | some mission =>
    if mission.tenantId = tenantId then
      let mission := reconcileReviewHold s.db now mission
      some (s.saveMission mission, mission)
    else none

section Acceptance

def compositionOf (mission : Mission) : Option Json :=
  ((Fields.get mission.metadata "mission_intake").bind (·.field "context")).bind
    (·.field "composition")

/-- `_mission_acceptance_contract`. -/
def missionAcceptanceContract (mission : Mission) : Fields :=
  match (compositionOf mission).bind (·.field "acceptance_contract") with
  | some (.obj contract) => contract
  | _ => []

/-- The mission declares a durable deliverable whose read model is not complete. -/
def deliverableIncomplete (mission : Mission) : Bool :=
  match (compositionOf mission).bind (·.field "deliverable_runtime_state") with
  | some (.obj state) =>
      ((Fields.get state "completion").bind (·.field "complete")) ≠ some (.bool true)
  | _ => false

def materializedArtifactKeys (task : ExecutionTask) : List String :=
  match Fields.get task.metadata "materialized_artifacts" with
  | some (.arr refs) => refs.filterMap fun r =>
      match r.field "artifact_key" with
      | some (.str key) => some key
      | _ => none
  | _ => []

def businessOutcomeStatus (task : ExecutionTask) : Option Json :=
  match (((Fields.get task.metadata "handler_result").bind (·.field "output")).bind
    (·.field "goal_progress_evaluation")).bind (·.field "status") with
  | some (.str status) => some (.str status)
  | _ => none

structure Acceptance where
  met : Bool
  reasons : List String

/-- The acceptance of a terminal graph. -/
def evaluateAcceptance (env : Env) (mission : Mission) (siblings : List ExecutionTask) :
    Except Error Acceptance := do
  let contract := missionAcceptanceContract mission
  let requireContacts := match Fields.get contract "require_observed_contacts" with
    | none => true
    | some v => v = .bool true
  let observed ← env.observeAcceptanceReasons siblings requireContacts
  let (contractMet, contractReasons) ← env.evaluateMissionAcceptance siblings contract
  let reasons := contractReasons.foldl (fun rs r => if r ∈ rs then rs else rs ++ [r]) observed
  let reasons := if siblings.any (·.status.failedish) then
    reasons ++ ["one or more runtime tasks failed"] else reasons
  let met := contractMet && reasons.isEmpty
  if deliverableIncomplete mission then
    pure ⟨false, reasons ++ ["durable deliverable is incomplete"]⟩
  else pure ⟨met, reasons⟩

/-- The `acceptance` entry of the mission's metadata. -/
def acceptanceJson (env : Env) (now : String) (acceptance : Acceptance)
    (siblings : List ExecutionTask) : Json :=
  .obj [("status", .str (if acceptance.met then "met" else "partially_met")),
    ("scope", .str "runtime_execution_and_deliverable"),
    ("business_outcome_status", ((siblings.filterMap businessOutcomeStatus).getLast?).getD .null),
    ("reasons", .arr (acceptance.reasons.map .str)), ("evaluated_at", .str now),
    ("task_count", natJson siblings.length),
    ("algorithm_results", .arr [env.artifactCompleteness siblings.length
      (siblings.countP (·.status.failedish)) acceptance.met acceptance.reasons
      (siblings.flatMap materializedArtifactKeys)])]

end Acceptance

/-- The states from which a rollup passes through `running`. -/
def MissionState.notStarted : MissionState → Bool
  | .planned | .approved | .queued | .paused => true
  | _ => false

/-- The mission of a graph with open tasks; an illegal transition is skipped. -/
def markRunning (s : Session) (mission : Mission) : Session :=
  if mission.status.notStarted then
    match transitionMission mission .running with
    | .ok mission => s.saveMission mission
    | .error _ => s
  else s

/-- The mission of a graph without open tasks; an illegal transition leaves the metadata and
the hop through `running` in the session. -/
def finishMission (env : Env) (now : String) (s : Session) (mission : Mission)
    (siblings : List ExecutionTask) : Except Error Session := do
  let acceptance ← evaluateAcceptance env mission siblings
  let target := if siblings.any (·.status.failedish) || !acceptance.met then
    MissionState.failed else .completed
  let mission := { mission with
    metadata := Fields.set mission.metadata "acceptance" (acceptanceJson env now acceptance siblings) }
  let mission := if mission.status.notStarted then
    match transitionMission mission .running with
    | .ok mission => mission
    | .error _ => mission
  else mission
  match transitionMission mission target with
  | .ok mission => pure (s.saveMission mission)
  | .error _ => pure (s.saveMission mission)

/-- One pass over the siblings: re-admit recovered and deferred dependents. -/
def readmitDependents (env : Env) (amb : Ambient) (s : Session) (missionId : String) :
    Except Error Session := do
  let siblings := s.db.listForMission missionId
  let s ← (siblings.filter (recoverable env siblings)).foldlM
    (readmitTask amb (recoverDependent env amb.now)) s
  let siblings := s.db.listForMission missionId
  (siblings.filter (redispatchable env siblings)).foldlM
    (readmitTask amb (redispatchDependent amb.now)) s

/-- `maybe_rollup_mission_status`; `fuel` is the recursion the interpreter has left. -/
def maybeRollupMissionStatus (env : Env) (amb : Ambient) :
    ℕ → Session → ExecutionTask → Except Error Session
  | 0, _, _ => .error .recursion
  | fuel + 1, s, task =>
    match getMissionForTenant s amb.now task.missionId task.tenantId with
    | none => .ok s
    | some (s, mission) =>
      if mission.status.terminal then .ok s
      else if (s.db.listForMission task.missionId).isEmpty then .ok s
      else do
        let s ← readmitDependents env amb s task.missionId
        let siblings := s.db.listForMission task.missionId
        let failedKeys := failedNodeKeys siblings
        let impossible := siblings.filter (blockable env failedKeys)
        if impossible.isEmpty then
          if siblings.any fun t => !t.status.terminal then pure (markRunning s mission)
          else finishMission env amb.now s mission siblings
        else
          let s := impossible.foldl (fun s t => s.saveTask (blockDependent env failedKeys t)) s
          maybeRollupMissionStatus env amb fuel s task

end Ajenda.Runtime
