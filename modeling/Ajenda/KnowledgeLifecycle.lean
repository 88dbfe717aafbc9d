import Ajenda.KnowledgeGrounding
import Ajenda.TransitionSystem

/-!
# The knowledge ledger and its lifecycle

A consolidation evaluates the tenant's learning history, qualifies each pattern candidate and
appends the qualifications that carry a proposition. `_resolve` answers the current status
of one proposition from its ledger entries: the newest watermark decides. A qualification's
id is the hash of its candidate and a proposition's key the hash of its fields; both are kept
as what was hashed.
-/
namespace Ajenda.Experience
open TransitionSystem

/-- `KnowledgeProposition`; its relationship type is always the favourable association. -/
structure KnowledgeProposition where
  subjectSemanticSignatures : List BusinessObjectType
  interventionKey : String
  objectiveKey : Option String
  kpiSemanticSignatures : List KpiSemanticSignature
  scopeConditions : List String
  invalidationConditions : List String
  deriving DecidableEq, Repr

/-- `KnowledgeQualificationRecord`. -/
structure LedgerRecord where
  candidate : ExperiencePatternCandidate
  proposition : KnowledgeProposition
  status : KnowledgeQualificationStatus
  evaluationWatermark : Option Datetime
  reasonCodes : List String
  deriving DecidableEq, Repr

abbrev KnowledgeLedger := List LedgerRecord

inductive KnowledgeLifecycleStatus
  | absent | provisional | active | contested | invalidated
  deriving DecidableEq, Repr

structure CurrentKnowledgeState where
  lifecycleStatus : KnowledgeLifecycleStatus
  evaluationFrontier : Option Datetime
  authoritativeQualifications : List ExperiencePatternCandidate
  historicalQualificationCount : ℕ
  unorderedQualifications : List ExperiencePatternCandidate
  reasonCodes : List String
  deriving DecidableEq, Repr

section Consolidation

def propositionOf (context : PatternSemanticContext) : KnowledgeProposition where
  subjectSemanticSignatures := context.subjectSemanticSignatures
  interventionKey := context.interventionKey
  objectiveKey := context.objectiveKey
  kpiSemanticSignatures := context.commonKpiSemanticSignatures
  scopeConditions := context.scopeConditions
  invalidationConditions := context.invalidationConditions

/-- The ledger record of a candidate; without a proposition it is not eligible. -/
def ledgerRecord (candidate : ExperiencePatternCandidate) :
    Except EvaluationError (Option LedgerRecord) := do
  let result ← qualifyPatternKnowledge candidate
  return match candidate.semanticContext with
    | none => none
    | some context =>
      if (semanticGate candidate).decision = .fail then none
      else some ⟨candidate, propositionOf context, result.status, candidate.latestEvaluatedAt,
        result.reasonCodes⟩

inductive ConsolidationError
  | conflictingEpisodes
  | naiveAndAwareTimes
  | evaluation (error : EvaluationError)
  deriving DecidableEq

/-- The episodes of a durable history: repeated records of one episode must agree. The source
sorts them by evaluation time, and the evaluation sorts them again by id. -/
def distinctEpisodes (history : List ExperienceEpisodeInput) :
    Except ConsolidationError (List ExperienceEpisodeInput) :=
  if ∃ a ∈ history, ∃ b ∈ history, a.signal.evaluatedAt.aware ≠ b.signal.evaluatedAt.aware then
    .error .naiveAndAwareTimes
  else if ∃ a ∈ history, ∃ b ∈ history, a.episodeId = b.episodeId ∧ a ≠ b then
    .error .conflictingEpisodes
  else .ok history.dedup

variable (F : CaseFolding) (stableKey : PartitionPayload → String)

def ledgerRecords : List ExperiencePatternCandidate → Except EvaluationError (List LedgerRecord)
  | [] => .ok []
  | candidate :: rest => do
    let record ← ledgerRecord candidate
    return record.toList ++ (← ledgerRecords rest)

/-- The records a history earns. -/
def historyRecords (history : List ExperienceEpisodeInput) :
    Except ConsolidationError (List LedgerRecord) :=
  match distinctEpisodes history with
  | .error e => .error e
  | .ok episodes =>
    match evaluateExperienceSet F stableKey episodes with
    | .error e => .error (.evaluation e)
    | .ok result =>
      match ledgerRecords result.patternCandidates with
      | .error e => .error (.evaluation e)
      | .ok records => .ok records

/-- `append_qualification`: a stored qualification is kept. -/
def appendQualification (ledger : KnowledgeLedger) (record : LedgerRecord) : KnowledgeLedger :=
  if ledger.any fun stored => stored.candidate = record.candidate then ledger
  else ledger ++ [record]

/-- `DurableExperienceConsolidationService.consolidate`; a failure writes nothing. -/
def consolidate (ledger : KnowledgeLedger) (history : List ExperienceEpisodeInput) :
    KnowledgeLedger :=
  match historyRecords F stableKey history with
  | .error _ => ledger
  | .ok records => records.foldl appendQualification ledger

end Consolidation

section Lifecycle

def lifecycleStatus : KnowledgeQualificationStatus → KnowledgeLifecycleStatus
  | .qualified => .active
  | .provisional => .provisional
  | .insufficient => .absent
  | .contested => .contested
  | .invalidated => .invalidated

def LedgerRecord.instant (r : LedgerRecord) : Option ℤ := r.evaluationWatermark.map Datetime.instant

/-- The dated records no other record is newer than. -/
def frontierOf (known : List LedgerRecord) : List LedgerRecord :=
  known.filter fun r => known.all fun other => other.instant.all fun t => r.instant.all (t ≤ ·)

/-- `_resolve`, on the records of one proposition. -/
def resolveLifecycle (items : List LedgerRecord) : CurrentKnowledgeState :=
  let known := items.filter (·.evaluationWatermark.isSome)
  let unordered := items.filter (·.evaluationWatermark.isNone)
  let frontier := if known = [] then items else frontierOf known
  let statuses : List KnowledgeQualificationStatus := (frontier.map (·.status)).dedup
  let status : KnowledgeLifecycleStatus :=
    if items = [] then .absent
    else if known = [] ∧ 1 < items.length then .contested
    else if KnowledgeQualificationStatus.invalidated ∈ statuses then .invalidated
    else match statuses with
      | [status] => lifecycleStatus status
      | _ => .contested
  { lifecycleStatus := status
    evaluationFrontier := if known = [] then none else frontier.head?.bind (·.evaluationWatermark)
    authoritativeQualifications := frontier.map (·.candidate)
    historicalQualificationCount := items.length
    unorderedQualifications := unordered.map (·.candidate)
    reasonCodes := sortedSet
      ((if items = [] then ["no_qualification_history"] else []) ++
        (if known = [] ∧ 1 < items.length then ["temporal_authority_unresolved"] else []) ++
        frontier.flatMap (·.reasonCodes)) }

/-- `resolve_current_knowledge_state`. A watermark is stored with its time zone, so one that
was naive no longer equals the payload's and the record fails its check. -/
def currentKnowledgeState (ledger : KnowledgeLedger) (proposition : KnowledgeProposition) :
    Option CurrentKnowledgeState :=
  let items := ledger.filter fun r => r.proposition = proposition
  if items.all fun r => r.evaluationWatermark.all Datetime.aware then some (resolveLifecycle items)
  else none

def isActive (ledger : KnowledgeLedger) (proposition : KnowledgeProposition) : Bool :=
  (currentKnowledgeState ledger proposition).any fun state => state.lifecycleStatus = .active

end Lifecycle

end Ajenda.Experience
