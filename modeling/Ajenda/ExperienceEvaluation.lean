import Mathlib.Data.Prod.Lex
import Mathlib.Order.Lex
import Mathlib.Data.List.Lex
import Ajenda.ExperienceRecurrence

/-!
# Pattern candidates of an experience set

`evaluate_experience_set`: the episodes in the order of their ids, their partitions, and the
candidate each partition earns. `stableKey` is the truncated SHA-256 key of a payload, so two
payloads may in principle share a partition. An error is what the source raises: a duplicate
id, a comparison of a naive and an aware time, or a candidate its own validator refuses.
-/
namespace Ajenda.Experience

inductive EvaluationError
  | duplicateEpisodeIds (ids : List String)
  | naiveAndAwareTimes
  | unknownObjectType (value : String)
  | contextMismatch
  deriving DecidableEq, Repr

/-- `ExperiencePatternSemanticContext`, its fields in canonical form. -/
structure PatternSemanticContext where
  subjectSemanticSignatures : List BusinessObjectType
  interventionKey : String
  interventionSemanticBases : List InterventionSemanticBasis
  objectiveKey : Option String
  commonKpiSemanticSignatures : List KpiSemanticSignature
  goalSemanticBases : List GoalSemanticBasis
  exactGoalIds : List String
  scopeConditions : List String
  invalidationConditions : List String
  deriving DecidableEq, Repr

structure ExperiencePatternCandidate where
  partitionKey : String
  recommendationClass : String
  subjectTypes : List String
  goalId : GoalIdentity
  objectiveDimensions : List String
  supportingEpisodeIds : List String
  contradictingEpisodeIds : List String
  neutralEpisodeIds : List String
  ambiguousEpisodeIds : List String
  excludedEpisodeIds : List String
  dependentEpisodeGroups : List (List String)
  commonScopeConditions : List String
  conflictingScopeConditions : List String
  invalidationConditions : List String
  earliestEvaluatedAt : Option Datetime
  latestEvaluatedAt : Option Datetime
  recurrence : RecurrenceAssessment
  explanationCodes : List String
  semanticContext : Option PatternSemanticContext
  deriving DecidableEq, Repr

structure ExperienceIntelligenceResult where
  signatures : List ExperienceContextSignature
  comparisons : List ExperienceComparison
  patternCandidates : List ExperiencePatternCandidate
  excludedEpisodeIds : List String
  unclassifiedEpisodeIds : List String
  dependentEpisodeGroups : List (List String)
  partitionExplanations : List (String × List String)
  episodeExplanations : List (String × List String)
  deriving DecidableEq, Repr

/-! ## Times -/

/-- `a < b`, which raises `TypeError` when one of the two is naive and the other aware. -/
def Datetime.lt (a b : Datetime) : Except EvaluationError Bool :=
  match a.utcoffset, b.utcoffset with
  | none, none => .ok (a.wall < b.wall)
  | some x, some y => .ok (a.wall - x < b.wall - y)
  | _, _ => .error .naiveAndAwareTimes

/-- The fold of `min` (with `lt`) or `max` (with `lt` turned round): the first extreme stays. -/
def extreme (beats : Datetime → Datetime → Except EvaluationError Bool) :
    Datetime → List Datetime → Except EvaluationError Datetime
  | best, [] => .ok best
  | best, t :: ts => do
    if ← beats t best then extreme beats t ts else extreme beats best ts

def earliest (t : Datetime) (ts : List Datetime) : Except EvaluationError Datetime :=
  extreme Datetime.lt t ts

def latest (t : Datetime) (ts : List Datetime) : Except EvaluationError Datetime :=
  extreme (fun a b => Datetime.lt b a) t ts

/-- The point of the time line two times of one kind are compared by. -/
def Datetime.instant (t : Datetime) : Int := t.wall - t.utcoffset.getD 0

theorem Datetime.lt_eq (a b : Datetime) :
    Datetime.lt a b = if a.aware = b.aware then .ok (decide (a.instant < b.instant))
      else .error .naiveAndAwareTimes := by
  obtain ⟨wall, offset⟩ := a
  obtain ⟨wall', offset'⟩ := b
  cases offset <;> cases offset'
  · simp [Datetime.lt, Datetime.aware, Datetime.instant]
  · simp [Datetime.lt, Datetime.aware]
  · simp [Datetime.lt, Datetime.aware]
  · rfl

/-- An extreme of times of one kind exists, and stands where the comparison leaves it. -/
theorem extreme_ok {beats : Datetime → Datetime → Except EvaluationError Bool}
    (before : Datetime → Datetime → Prop) (hrefl : ∀ t, before t t)
    (htrans : ∀ a b c, before a b → before b c → before a c)
    (hbeats : ∀ a b, a.aware = b.aware → ∃ v, beats a b = .ok v ∧ (v = true → before a b))
    {best : Datetime} {ts : List Datetime} (hts : ∀ t ∈ ts, t.aware = best.aware) :
    ∃ m, extreme beats best ts = .ok m ∧ m.aware = best.aware ∧ before m best := by
  induction ts generalizing best with
  | nil => exact ⟨best, rfl, rfl, hrefl best⟩
  | cons t ts ih =>
    have ht := hts t (by simp)
    obtain ⟨v, hv, hbefore⟩ := hbeats t best ht
    rw [extreme, hv]
    cases v with
    | false => exact ih fun u hu => hts u (by simp [hu])
    | true =>
      obtain ⟨m, hm, haware, hle⟩ := ih (fun u hu => (hts u (by simp [hu])).trans ht.symm)
      exact ⟨m, hm, haware.trans ht, htrans _ _ _ hle (hbefore rfl)⟩

/-- Times of two kinds have no extreme. -/
theorem extreme_mixed {beats : Datetime → Datetime → Except EvaluationError Bool}
    (hbeats : ∀ a b, a.aware ≠ b.aware → beats a b = .error .naiveAndAwareTimes)
    (hsame : ∀ a b, a.aware = b.aware → ∃ v, beats a b = .ok v)
    {best : Datetime} {ts : List Datetime} (hts : ∃ t ∈ ts, t.aware ≠ best.aware) :
    extreme beats best ts = .error .naiveAndAwareTimes := by
  induction ts generalizing best with
  | nil => simp at hts
  | cons t ts ih =>
    rw [extreme]
    by_cases ht : t.aware = best.aware
    · have hrest : ∀ b : Datetime, b.aware = best.aware → ∃ u ∈ ts, u.aware ≠ b.aware := by
        intro b hb
        obtain ⟨u, hu, hne⟩ := hts
        rcases List.mem_cons.1 hu with rfl | hu
        · exact absurd ht hne
        · exact ⟨u, hu, hb ▸ hne⟩
      obtain ⟨v, hv⟩ := hsame t best ht
      rw [hv]
      cases v with
      | false => exact ih (hrest best rfl)
      | true => exact ih (hrest t ht)
    · rw [hbeats t best ht]
      rfl

theorem earliest_ok {t : Datetime} {ts : List Datetime} (hts : ∀ u ∈ ts, u.aware = t.aware) :
    ∃ m, earliest t ts = .ok m ∧ m.aware = t.aware ∧ m.instant ≤ t.instant := by
  refine extreme_ok (fun a b => a.instant ≤ b.instant) (fun _ => le_rfl)
    (fun _ _ _ => le_trans) ?_ hts
  intro a b hab
  refine ⟨_, by rw [Datetime.lt_eq, if_pos hab], ?_⟩
  intro hlt
  exact (of_decide_eq_true hlt).le

theorem latest_ok {t : Datetime} {ts : List Datetime} (hts : ∀ u ∈ ts, u.aware = t.aware) :
    ∃ m, latest t ts = .ok m ∧ m.aware = t.aware ∧ t.instant ≤ m.instant := by
  refine extreme_ok (fun a b => b.instant ≤ a.instant) (fun _ => le_rfl)
    (fun _ _ _ h h' => h'.trans h) ?_ hts
  intro a b hab
  refine ⟨_, by rw [Datetime.lt_eq, if_pos hab.symm], ?_⟩
  intro hlt
  exact (of_decide_eq_true hlt).le

theorem earliest_mixed {t : Datetime} {ts : List Datetime} (hts : ∃ u ∈ ts, u.aware ≠ t.aware) :
    earliest t ts = .error .naiveAndAwareTimes := by
  refine extreme_mixed ?_ ?_ hts
  · intro a b hab
    rw [Datetime.lt_eq, if_neg hab]
  · intro a b hab
    exact ⟨_, by rw [Datetime.lt_eq, if_pos hab]⟩

/-! ## The semantic context of a partition -/

/-- `tuple(sorted(set(bases)))`, the bases in the order of their values. -/
def canonicalInterventionBases (xs : List InterventionSemanticBasis) :
    List InterventionSemanticBasis :=
  [InterventionSemanticBasis.decisionOwner, .legacyExperienceFallback].filter (· ∈ xs)

def canonicalGoalBases (xs : List GoalSemanticBasis) : List GoalSemanticBasis :=
  [GoalSemanticBasis.exactGoalInstanceFallback, .inheritedExplicitObjective, .inheritedKpiOnly,
    .ownerExplicitObjective, .ownerKpiOnly].filter (· ∈ xs)

def canonicalSubjects (xs : List BusinessObjectType) : List BusinessObjectType :=
  [BusinessObjectType.account, .contact, .lead, .opportunity, .organization, .person].filter
    (· ∈ xs)

def kpiRank (k : KpiSemanticSignature) : String ×ₗ String ×ₗ String :=
  toLex (k.metric, toLex (k.direction.value, k.normalizedUnit.getD ""))

def canonicalKpis (xs : List KpiSemanticSignature) : List KpiSemanticSignature :=
  xs.dedup.insertionSort fun a b => kpiRank a ≤ kpiRank b

/-- The value all the lists share, or nothing. -/
def shared {α : Type*} [DecidableEq α] : List (List α) → List α
  | [] => []
  | xs :: rest => if ∀ ys ∈ rest, ys = xs then xs else []

/-- `BusinessObjectType(value)` for each subject type. -/
def subjectSignatures : List String → Except EvaluationError (List BusinessObjectType)
  | [] => .ok []
  | value :: rest =>
    match BusinessObjectType.ofValue value with
    | none => .error (.unknownObjectType value)
    | some type => do return type :: (← subjectSignatures rest)

def objectiveKeyOf : Option GoalIdentity → Option String
  | some (.objective key) => some key
  | _ => none

/-- `_pattern_semantic_context`. -/
def patternSemanticContext (F : CaseFolding) (first : ExperienceContextSignature)
    (sigs : List ExperienceContextSignature) (commonScope invalidations : List String) :
    Except EvaluationError PatternSemanticContext := do
  let subjects ← subjectSignatures first.semanticSubjectTypes
  return {
    subjectSemanticSignatures := canonicalSubjects subjects
    interventionKey := first.recommendationClass.getD ""
    interventionSemanticBases :=
      canonicalInterventionBases (sigs.filterMap (·.interventionSemanticBasis))
    objectiveKey := objectiveKeyOf first.resolvedGoalPartitionIdentity
    commonKpiSemanticSignatures := canonicalKpis (shared (sigs.map ownerKpis))
    goalSemanticBases := canonicalGoalBases (sigs.filterMap (·.goalSemanticBasis))
    exactGoalIds := canonicalIdentifiers (sigs.filterMap (·.exactGoalId))
    scopeConditions := canonicalSemanticValues F commonScope
    invalidationConditions := canonicalSemanticValues F invalidations }

/-- `enforce_safety_flags`: the context must describe the candidate. -/
def validateCandidate (c : ExperiencePatternCandidate) :
    Except EvaluationError ExperiencePatternCandidate :=
  match c.semanticContext with
  | none => .ok c
  | some context =>
    if context.interventionKey ≠ c.recommendationClass ∨
        context.subjectSemanticSignatures.map (·.value) ≠ c.subjectTypes ∨
        context.scopeConditions ≠ c.commonScopeConditions ∨
        context.invalidationConditions ≠ c.invalidationConditions
    then .error .contextMismatch
    else .ok c

/-! ## Partitions of an experience set -/

/-- The observations in the order of their episode ids, goal authority resolved. -/
def observations (F : CaseFolding) (episodes : List ExperienceEpisodeInput) : List Observation :=
  let ordered := episodes.insertionSort fun a b => a.episodeId ≤ b.episodeId
  let signatures := ordered.map (deriveContextSignature F)
  ordered.map fun e => ⟨resolveSignature signatures (deriveContextSignature F e), e.signal⟩

variable (F : CaseFolding) (stableKey : PartitionPayload → String)

/-- `_partition_key`. -/
def partitionKey (sig : ExperienceContextSignature) : Option String :=
  (partitionPayload sig).map stableKey

def partitionOf (obs : List Observation) (key : String) : List Observation :=
  obs.filter fun o => partitionKey stableKey o.signature = some key

def partitionKeys (obs : List Observation) : List String :=
  sortedSet (obs.filterMap fun o => partitionKey stableKey o.signature)

/-- `_active_scope_conditions`. -/
def activeScopeConditions (part : List Observation) : List String :=
  sortedSet (part.flatMap (·.signature.scopeConditions))

/-- `eligibility_by_id` for the episodes of one partition. -/
def eligibilityById (part : List Observation) (id : String) : Option Eligibility :=
  (part.find? (·.id = id)).map (eligibility (activeScopeConditions part))

def partitionComparisons (part : List Observation) (cs : List ExperienceComparison) :
    List ExperienceComparison :=
  cs.filter fun c => c.leftEpisodeId ∈ part.map (·.id) ∧ c.rightEpisodeId ∈ part.map (·.id)

def partitionComponents (part : List Observation) (cs : List ExperienceComparison) :
    List (List String) :=
  buildHardComponents (sortedSet (part.map (·.id))) (partitionComparisons part cs)

def partitionUnits (part : List Observation) (cs : List ExperienceComparison) :
    List EvidenceUnit :=
  buildEvidenceUnits (partitionComponents part cs) (eligibilityById part)
    (partitionComparisons part cs)

def partitionExcluded (part : List Observation) : List String :=
  sortedSet ((part.filter fun o =>
    (eligibility (activeScopeConditions part) o).excluded).map (·.id))

/-- The episodes of the units of one direction. -/
def episodesOf (direction : EvidenceUnitDirection) (units : List EvidenceUnit) : List String :=
  sortedSet ((units.filter (·.direction = direction)).flatMap (·.episodeIds))

/-- The candidate of a partition that earned an assessment. -/
def patternCandidate (key : String) (payload : PartitionPayload) (first : Observation)
    (part : List Observation) (cs : List ExperienceComparison)
    (assessment : RecurrenceAssessment) : Except EvaluationError ExperiencePatternCandidate := do
  let units := partitionUnits part cs
  let sigs := part.map (·.signature)
  let commonScope := shared (sigs.map (·.scopeConditions))
  let invalidations := sortedSet (sigs.flatMap (·.invalidationConditions))
  let dimensions := shared (sigs.map (·.objectiveDimensions))
  let diverged := dimensions.isEmpty && sigs.any (!·.objectiveDimensions.isEmpty)
  let times := part.tail.map (·.signal.evaluatedAt)
  let earliestAt ← earliest first.signal.evaluatedAt times
  let latestAt ← latest first.signal.evaluatedAt times
  let context ← patternSemanticContext F first.signature sigs commonScope invalidations
  validateCandidate {
    partitionKey := key
    recommendationClass := payload.recommendationClass
    subjectTypes := payload.subjectTypes
    goalId := payload.goalId
    objectiveDimensions := dimensions
    supportingEpisodeIds := episodesOf .support units
    contradictingEpisodeIds := episodesOf .contradiction units
    neutralEpisodeIds := episodesOf .neutral units
    ambiguousEpisodeIds := episodesOf .ambiguous units
    excludedEpisodeIds := partitionExcluded part
    dependentEpisodeGroups := (partitionComponents part cs).filter (1 < ·.length)
    commonScopeConditions := commonScope
    conflictingScopeConditions :=
      (sortedSet (sigs.flatMap (·.scopeConditions))).filter (· ∉ commonScope)
    invalidationConditions := invalidations
    earliestEvaluatedAt := some earliestAt
    latestEvaluatedAt := some latestAt
    recurrence := assessment
    explanationCodes := assessment.reasonCodes ++
      if diverged then ["caller_objective_context_diverged"] else []
    semanticContext := some context }

/-- The candidate of the partition of a key, or nothing when it earned none. The payload kept
for the key is that of its last signature. -/
def partitionCandidate (obs : List Observation) (cs : List ExperienceComparison) (key : String) :
    Except EvaluationError (Option ExperiencePatternCandidate) :=
  let part := partitionOf stableKey obs key
  match assessmentFromUnits (partitionUnits part cs), part.head?,
      part.getLast?.bind (partitionPayload ·.signature) with
  | some assessment, some first, some payload =>
    (patternCandidate F key payload first part cs assessment).map some
  | _, _, _ => .ok none

def candidatesOf (obs : List Observation) (cs : List ExperienceComparison) :
    List String → Except EvaluationError (List ExperiencePatternCandidate)
  | [] => .ok []
  | key :: rest => do
    let candidate ← partitionCandidate F stableKey obs cs key
    return candidate.toList ++ (← candidatesOf obs cs rest)

/-- The explanation of a partition without a candidate. -/
def noCandidateCodes (part : List Observation) (units : List EvidenceUnit) : List String :=
  ["partition_did_not_earn_recurrence_candidate"] ++
    (if (units.filter (·.direction ≠ .neutral)).length < 2 then
      ["fewer_than_two_directional_recurrence_units"] else []) ++
    (if part.length = 1 then ["singleton_partition_not_candidate"] else [])

def partitionExplanation (obs : List Observation) (cs : List ExperienceComparison)
    (candidates : List ExperiencePatternCandidate) (key : String) : String × List String :=
  let part := partitionOf stableKey obs key
  match candidates.find? (·.partitionKey = key) with
  | some c => (key, c.explanationCodes)
  | none => (key, noCandidateCodes part (partitionUnits part cs))

def observationEligibility (obs : List Observation) (o : Observation) : Eligibility :=
  match partitionKey stableKey o.signature with
  | some key => eligibility (activeScopeConditions (partitionOf stableKey obs key)) o
  | none => unclassifiedEligibility o.signature

/-- `evaluate_experience_set`. -/
def evaluateExperienceSet (episodes : List ExperienceEpisodeInput) :
    Except EvaluationError ExperienceIntelligenceResult := do
  let ids := episodes.map (·.episodeId)
  if ¬ids.Nodup then
    .error (.duplicateEpisodeIds (sortedSet (ids.filter (1 < ids.count ·))))
  else
    let obs := observations F episodes
    let cs := comparisons (obs.map (·.signature))
    let keys := partitionKeys stableKey obs
    let candidates ← candidatesOf F stableKey obs cs keys
    return {
      signatures := obs.map (·.signature)
      comparisons := cs
      patternCandidates := candidates
      excludedEpisodeIds :=
        sortedSet ((obs.filter fun o => (observationEligibility stableKey obs o).excluded).map (·.id))
      unclassifiedEpisodeIds :=
        sortedSet
          ((obs.filter fun o => (observationEligibility stableKey obs o).unclassified).map (·.id))
      dependentEpisodeGroups := sortedSet (keys.flatMap fun key =>
        (partitionComponents (partitionOf stableKey obs key) cs).filter (1 < ·.length))
      partitionExplanations := keys.map (partitionExplanation stableKey obs cs candidates)
      episodeExplanations := obs.map fun o =>
        (o.id, (observationEligibility stableKey obs o).reasonCodes) }

end Ajenda.Experience
