import Ajenda.EvidenceCounts

/-!
# Adding a contradicting episode

What one more contradicting episode does to the strength of its pattern and to the status the
pattern qualifies for. As long as no other episode joins or leaves the pattern and the new
episode is independent of every strong contradiction that stands alone, neither the strength
nor the status rises. A copy that depends on the only strong contradiction turns a
contested pattern into a qualified one.
-/
namespace Ajenda.Experience

/-! ## Status in order -/

def KnowledgeQualificationStatus.rank : KnowledgeQualificationStatus → ℕ
  | .invalidated => 0
  | .contested => 1
  | .insufficient => 2
  | .provisional => 3
  | .qualified => 4

def QualificationGateDecision.rank : QualificationGateDecision → ℕ
  | .fail => 0
  | .capProvisional => 1
  | .pass => 2

def patternOf (r : ExperienceIntelligenceResult) (key : String) :
    Option ExperiencePatternCandidate :=
  r.patternCandidates.find? (·.partitionKey = key)

/-- The strength of a pattern; without a candidate it is no better than weak. -/
def patternStrength (r : ExperienceIntelligenceResult) (key : String) : ℕ :=
  ((patternOf r key).map (·.recurrence.strength.rank)).getD RecurrenceStrength.weak.rank

/-- The status of a pattern; without a candidate it is no better than insufficient. -/
def patternStatus (r : ExperienceIntelligenceResult) (key : String) : ℕ :=
  ((patternOf r key).bind fun c => (qualifyPatternKnowledge c).toOption.map (·.status.rank)).getD
    KnowledgeQualificationStatus.insufficient.rank

/-- Neither the strength nor the status of the pattern is better with the episode added. -/
def NotStrengthened (F : CaseFolding) (stableKey : PartitionPayload → String)
    (episodes : List ExperienceEpisodeInput) (e : ExperienceEpisodeInput) (key : String) : Prop :=
  ∀ r r', evaluateExperienceSet F stableKey episodes = .ok r →
    evaluateExperienceSet F stableKey (e :: episodes) = .ok r' →
    ∀ c ∈ r'.patternCandidates, c.partitionKey = key →
      c.recurrence.strength.rank ≤ patternStrength r key ∧
      ∀ q, qualifyPatternKnowledge c = .ok q → q.status.rank ≤ patternStatus r key

/-! ## The strength of a pattern is that of its units -/

section Patterns
variable {F : CaseFolding} {stableKey : PartitionPayload → String}

theorem candidatesOf_ok {obs : List Observation} {cs : List ExperienceComparison}
    {keys : List String} {candidates : List ExperiencePatternCandidate}
    (h : candidatesOf F stableKey obs cs keys = .ok candidates) :
    ∀ key ∈ keys, ∃ found, partitionCandidate F stableKey obs cs key = .ok found := by
  induction keys generalizing candidates with
  | nil => simp
  | cons key rest ih =>
    rw [candidatesOf] at h
    cases hp : partitionCandidate F stableKey obs cs key with
    | error e =>
      rw [hp] at h
      cases h
    | ok found =>
      cases hr : candidatesOf F stableKey obs cs rest with
      | error e =>
        rw [hp, hr] at h
        cases h
      | ok others =>
        intro k hk
        rcases List.mem_cons.1 hk with rfl | hk
        · exact ⟨found, hp⟩
        · exact ih hr k hk

/-- A partition with a strength has a candidate, in an evaluation that does not raise. -/
theorem candidate_exists {episodes : List ExperienceEpisodeInput}
    {r : ExperienceIntelligenceResult} (hr : evaluateExperienceSet F stableKey episodes = .ok r)
    {key : String} {s : RecurrenceStrength × List String}
    (hs : recurrenceStrength (partitionUnits
      (partitionOf stableKey (observations F episodes) key)
      (comparisons ((observations F episodes).map (·.signature)))) = some s) :
    ∃ c ∈ r.patternCandidates, c.partitionKey = key := by
  have hpart : PartOf (observations F episodes)
      (partitionOf stableKey (observations F episodes) key) :=
    partOf_partition (evaluate_ok hr).1 _
  have hne : partitionOf stableKey (observations F episodes) key ≠ [] := by
    intro hnil
    rw [hnil] at hs
    simp [recurrenceStrength, partitionUnits, partitionComponents, buildEvidenceUnits,
      buildHardComponents, sortedSet, DisjointSets.components, DisjointSets.roots,
      directionalUnits] at hs
  obtain ⟨first, rest, hcons⟩ := List.exists_cons_of_ne_nil hne
  have hlastMem := List.getLast_mem hne
  obtain ⟨hlastObs, payload, hpayload, hkey⟩ := mem_partitionOf.1 hlastMem
  have hmemKey : key ∈ partitionKeys stableKey (observations F episodes) := by
    rw [partitionKeys, mem_sortedSet, List.mem_filterMap]
    exact ⟨_, hlastObs, by simp [partitionKey, hpayload, hkey]⟩
  obtain ⟨found, hfound⟩ := candidatesOf_ok (evaluate_ok hr).2 key hmemKey
  have hsome : ∃ c, found = some c := by
    have hassess : ∃ a, assessmentFromUnits (partitionUnits
        (partitionOf stableKey (observations F episodes) key)
        (comparisons ((observations F episodes).map (·.signature)))) = some a := by
      simp only [assessmentFromUnits, hs, Option.map_some]
      exact ⟨_, rfl⟩
    obtain ⟨a, ha⟩ := hassess
    have hhead : (partitionOf stableKey (observations F episodes) key).head? = some first := by
      rw [hcons]
      rfl
    have hlast : ((partitionOf stableKey (observations F episodes) key).getLast?).bind
        (partitionPayload ·.signature) = some payload := by
      rw [List.getLast?_eq_some_getLast hne]
      exact hpayload
    rw [partitionCandidate, ha, hhead, hlast] at hfound
    cases hp : patternCandidate F key payload first
        (partitionOf stableKey (observations F episodes) key)
        (comparisons ((observations F episodes).map (·.signature))) a with
    | error e =>
      simp only [hp] at hfound
      cases hfound
    | ok c =>
      simp only [hp] at hfound
      cases hfound
      exact ⟨c, rfl⟩
  obtain ⟨c, rfl⟩ := hsome
  exact ⟨c, (candidatesOf_mem (evaluate_ok hr).2).2 ⟨key, hmemKey, hfound⟩,
    (partitionCandidate_some hfound).1⟩

theorem candidate_rank {obs : List Observation} {payload : PartitionPayload} {first : Observation}
    {context : PatternSemanticContext} {c : ExperiencePatternCandidate}
    (h : CandidateOf F stableKey obs payload first context c) :
    ∃ s, recurrenceStrength (partitionUnits (partitionOf stableKey obs c.partitionKey)
      (comparisons (obs.map (·.signature)))) = some s ∧ c.recurrence.strength = s.1 := by
  obtain ⟨s, hs, hstrength, -, -⟩ := assessment_strength h.assessed
  exact ⟨s, hs, hstrength⟩

theorem patternOf_some {r : ExperienceIntelligenceResult} {key : String}
    {c : ExperiencePatternCandidate} (h : patternOf r key = some c) :
    c ∈ r.patternCandidates ∧ c.partitionKey = key :=
  ⟨List.mem_of_find?_eq_some h, by simpa using List.find?_some h⟩

theorem patternStrength_eq {episodes : List ExperienceEpisodeInput}
    {r : ExperienceIntelligenceResult} (hr : evaluateExperienceSet F stableKey episodes = .ok r)
    (key : String) :
    patternStrength r key = unitsRank (partitionUnits
      (partitionOf stableKey (observations F episodes) key)
      (comparisons ((observations F episodes).map (·.signature)))) := by
  cases hp : patternOf r key with
  | some c =>
    obtain ⟨hc, rfl⟩ := patternOf_some hp
    obtain ⟨payload, first, context, hspec⟩ := candidate_spec hr hc
    obtain ⟨s, hs, hstrength⟩ := candidate_rank hspec
    simp [patternStrength, hp, unitsRank, hs, hstrength]
  | none =>
    have hnone : recurrenceStrength (partitionUnits
        (partitionOf stableKey (observations F episodes) key)
        (comparisons ((observations F episodes).map (·.signature)))) = none := by
      by_contra hne
      obtain ⟨s, hs⟩ := Option.ne_none_iff_exists'.1 hne
      obtain ⟨c, hc, hkey⟩ := candidate_exists hr hs
      have hfind := List.find?_eq_none.1 hp c hc
      simp [hkey] at hfind
    simp [patternStrength, hp, unitsRank, hnone]

end Patterns

/-! ## The gates of the smaller pattern -/

/-- What the candidate of a pattern with a contradiction added shares with the candidate of the
pattern before, and what can only have got worse. -/
structure Narrower (c c' : ExperiencePatternCandidate) (context context' : PatternSemanticContext) :
    Prop where
  before : c.semanticContext = some context
  after : c'.semanticContext = some context'
  subjects : context.subjectSemanticSignatures = context'.subjectSemanticSignatures
  intervention : context.interventionKey = context'.interventionKey
  objective : context.objectiveKey = context'.objectiveKey
  scope : context.scopeConditions = context'.scopeConditions
  kpis : context'.commonKpiSemanticSignatures ≠ [] → context.commonKpiSemanticSignatures ≠ []
  interventionBases : ∀ b ∈ context.interventionSemanticBases,
    b ∈ context'.interventionSemanticBases
  goalBases : ∀ b ∈ context.goalSemanticBases, b ∈ context'.goalSemanticBases
  interventionKnown : context.interventionSemanticBases ≠ []
  goalKnown : context.goalSemanticBases ≠ []
  portable : (∀ b ∈ context.goalSemanticBases, b = .exactGoalInstanceFallback) →
    ∀ b ∈ context'.goalSemanticBases, b = .exactGoalInstanceFallback
  valid : validateCandidate c = .ok c
  oneScope : c.conflictingScopeConditions = []
  support : c'.recurrence.independentSupportCount ≤ c.recurrence.independentSupportCount
  consistent : c.recurrence.strength = .supported →
    c.recurrence.strongIndependentContradictionCount = 0
  strength : c'.recurrence.strength.rank ≤ c.recurrence.strength.rank
  favourable : 3 ≤ c'.recurrence.strength.rank

namespace Narrower
variable {c c' : ExperiencePatternCandidate} {context context' : PatternSemanticContext}

theorem fields_valid (h : Narrower c c' context context') :
    context.interventionKey = c.recommendationClass ∧
      context.scopeConditions = c.commonScopeConditions ∧
      context.invalidationConditions = c.invalidationConditions := by
  have hvalid := h.valid
  simp only [validateCandidate, h.before] at hvalid
  split at hvalid
  · cases hvalid
  · rename_i hfields
    simp only [not_or, not_not, ne_eq] at hfields
    exact ⟨hfields.1, hfields.2.2.1, hfields.2.2.2⟩

theorem semantic_le (h : Narrower c c' context context') :
    (semanticGate c').decision.rank ≤ (semanticGate c).decision.rank := by
  by_cases hcodes : semanticCodes c' = []
  · have hnil : semanticCodes c = [] := by
      simp only [semanticCodes, h.after, h.before, List.append_eq_nil_iff, ite_eq_right_iff,
        imp_false, List.cons_ne_nil] at hcodes ⊢
      refine ⟨⟨⟨?_, ?_⟩, ?_⟩, ?_⟩
      · rw [h.subjects]
        exact hcodes.1.1.1
      · rw [h.intervention]
        exact hcodes.1.1.2
      · rintro ⟨hobjective, hkpis⟩
        rw [h.objective] at hobjective
        refine hcodes.1.2 ⟨hobjective, ?_⟩
        by_contra hne
        exact h.kpis hne hkpis
      · rintro (hb | hb | hb | hb | hb)
        · exact h.interventionKnown hb
        · exact h.goalKnown hb
        · exact hb h.fields_valid.1
        · exact hb h.fields_valid.2.1
        · exact hb h.fields_valid.2.2
    simp [semanticGate, hcodes, hnil, gate, QualificationGateDecision.rank]
  · simp [semanticGate, hcodes, gate, QualificationGateDecision.rank]

theorem intervention_le (h : Narrower c c' context context') :
    (interventionGate c').decision.rank ≤ (interventionGate c).decision.rank := by
  have hknown := h.interventionKnown
  by_cases howner : ∀ b ∈ context'.interventionSemanticBases, b = .decisionOwner
  · have howner' : ∀ b ∈ context.interventionSemanticBases, b = .decisionOwner := fun b hb =>
      howner b (h.interventionBases b hb)
    have hpass : (interventionGate c).decision = .pass := by
      simp only [interventionGate, h.before, Option.map_some, Option.getD_some, if_neg hknown,
        if_pos howner', gate]
    rw [hpass]
    cases (interventionGate c').decision <;> simp [QualificationGateDecision.rank]
  · have hcap : (interventionGate c').decision.rank ≤ 1 := by
      simp only [interventionGate, h.after, Option.map_some, Option.getD_some, if_neg howner]
      split <;> simp [gate, QualificationGateDecision.rank]
    have hlow : 1 ≤ (interventionGate c).decision.rank := by
      simp only [interventionGate, h.before, Option.map_some, Option.getD_some, if_neg hknown]
      split <;> simp [gate, QualificationGateDecision.rank]
    exact hcap.trans hlow

theorem goal_le (h : Narrower c c' context context') :
    (goalGate c').decision.rank ≤ (goalGate c).decision.rank := by
  by_cases hexact : ∀ b ∈ context.goalSemanticBases, b = .exactGoalInstanceFallback
  · have hfail : (goalGate c').decision = .fail := by
      simp only [goalGate, h.after, Option.map_some, Option.getD_some,
        if_pos (h.portable hexact), gate]
    simp [hfail, QualificationGateDecision.rank]
  · have hlow : 1 ≤ (goalGate c).decision.rank := by
      simp only [goalGate, h.before, Option.map_some, Option.getD_some, if_neg hexact]
      split <;> simp [gate, QualificationGateDecision.rank]
    by_cases hpass : (goalGate c').decision = .pass
    · obtain ⟨found, objective, hfound, hobjective, howner⟩ := goalGate_pass hpass
      rw [h.after, Option.some_inj] at hfound
      subst hfound
      have howner' : ∀ b ∈ context.goalSemanticBases, b = .ownerExplicitObjective := fun b hb =>
        howner b (h.goalBases b hb)
      have hsome : ((some context).bind fun x => nonEmpty x.objectiveKey).isSome := by
        have hgate := hpass
        simp only [goalGate, h.after, Option.bind_some, Option.map_some, Option.getD_some] at hgate
        split at hgate
        · cases hgate
        split at hgate
        · rename_i hportable
          simpa [h.objective] using hportable.1
        · cases hgate
      have : (goalGate c).decision = .pass := by
        simp only [goalGate, h.before, Option.map_some, Option.getD_some, if_neg hexact,
          if_pos (And.intro hsome howner'), gate]
      rw [this]
      cases (goalGate c').decision <;> simp [QualificationGateDecision.rank]
    · have hcap : (goalGate c').decision.rank ≤ 1 := by
        cases hd : (goalGate c').decision with
        | pass => exact absurd hd hpass
        | capProvisional => simp [QualificationGateDecision.rank]
        | fail => simp [QualificationGateDecision.rank]
      exact hcap.trans hlow

theorem recurrence_le (h : Narrower c c' context context') :
    (recurrenceGate c').decision.rank ≤ (recurrenceGate c).decision.rank := by
  have hrank := h.strength
  have hfav := h.favourable
  cases hs : c.recurrence.strength <;> cases hs' : c'.recurrence.strength <;>
    simp_all [RecurrenceStrength.rank, recurrenceGate, gate, recurrenceDecision,
      QualificationGateDecision.rank]

theorem support_gate_le (h : Narrower c c' context context') :
    (supportGate c').decision.rank ≤ (supportGate c).decision.rank := by
  have hle := h.support
  simp only [supportGate, gate]
  split_ifs with h1 h2
  · simp
  · omega
  · simp [QualificationGateDecision.rank]
  · simp

theorem contradiction_le (h : Narrower c c' context context') :
    (contradictionGate c').decision.rank ≤ (contradictionGate c).decision.rank := by
  have hpass : (contradictionGate c).decision = .pass := by
    rw [contradictionGate, if_neg]
    · rfl
    · rintro ⟨hs, hpos⟩
      rw [h.consistent hs] at hpos
      exact lt_irrefl _ hpos
  rw [hpass]
  cases (contradictionGate c').decision <;> simp [QualificationGateDecision.rank]

theorem scope_le (h : Narrower c c' context context') :
    (scopeGate c').decision.rank ≤ (scopeGate c).decision.rank := by
  simp only [scopeGate, h.before, h.after, h.oneScope, h.scope, Option.map_some, Option.getD_some]
  split_ifs <;> simp_all [gate, QualificationGateDecision.rank]

end Narrower

theorem status_le_strength {c : ExperiencePatternCandidate} (invalid : Bool)
    (h : c.recurrence.strength.rank ≤ 2) :
    (qualificationStatus c.recurrence.strength (qualificationGates c invalid)).rank ≤
      c.recurrence.strength.rank := by
  cases hs : c.recurrence.strength with
  | invalidated => simp [qualificationStatus, KnowledgeQualificationStatus.rank]
  | contested =>
    simp [qualificationStatus, KnowledgeQualificationStatus.rank, RecurrenceStrength.rank]
  | weak =>
    have hfail : QualificationGateDecision.fail ∈
        (qualificationGates c invalid).all.map (·.decision) := by
      simp [KnowledgeQualificationGates.all, qualificationGates, recurrenceGate, gate, hs,
        recurrenceDecision]
    simp only [qualificationStatus, if_pos hfail]
    simp [KnowledgeQualificationStatus.rank, RecurrenceStrength.rank]
  | emerging =>
    rw [hs] at h
    simp [RecurrenceStrength.rank] at h
  | supported =>
    rw [hs] at h
    simp [RecurrenceStrength.rank] at h

theorem strength_le_status (strength : RecurrenceStrength) (gates : KnowledgeQualificationGates) :
    min strength.rank 2 ≤ (qualificationStatus strength gates).rank := by
  simp only [qualificationStatus]
  split_ifs <;> cases strength <;>
    simp_all [RecurrenceStrength.rank, KnowledgeQualificationStatus.rank]

/-- Gates that decide no better give no better status. -/
theorem status_le_status {strength strength' : RecurrenceStrength}
    {gates gates' : KnowledgeQualificationGates} (h' : 3 ≤ strength'.rank) (h : 3 ≤ strength.rank)
    (hle : List.Forall₂ (fun a b : QualificationGateResult => a.decision.rank ≤ b.decision.rank)
      gates'.all gates.all) :
    (qualificationStatus strength' gates').rank ≤ (qualificationStatus strength gates).rank := by
  have hopen : ∀ s : RecurrenceStrength, 3 ≤ s.rank → s ≠ .invalidated ∧ s ≠ .contested := by
    intro s hs
    cases s <;> simp_all [RecurrenceStrength.rank]
  have hbelow : ∀ g ∈ gates.all, ∃ g' ∈ gates'.all, g'.decision.rank ≤ g.decision.rank := by
    intro g hg
    obtain ⟨i, hi, rfl⟩ := List.getElem_of_mem hg
    have hi' : i < gates'.all.length := by rw [hle.length_eq]; exact hi
    exact ⟨_, List.getElem_mem hi', hle.get hi' hi⟩
  simp only [qualificationStatus, if_neg (hopen _ h).1, if_neg (hopen _ h).2,
    if_neg (hopen _ h').1, if_neg (hopen _ h').2]
  have hdown : ∀ d, d ∈ gates.all.map (·.decision) →
      ∃ d' ∈ gates'.all.map (·.decision), d'.rank ≤ d.rank := by
    intro d hd
    obtain ⟨g, hg, rfl⟩ := List.mem_map.1 hd
    obtain ⟨g', hg', hrank⟩ := hbelow g hg
    exact ⟨_, List.mem_map_of_mem hg', hrank⟩
  by_cases hfail : QualificationGateDecision.fail ∈ gates.all.map (·.decision)
  · obtain ⟨d, hd, hrank⟩ := hdown _ hfail
    have hd' : d = .fail := by
      cases d <;> simp_all [QualificationGateDecision.rank]
    rw [if_pos (hd' ▸ hd)]
    split_ifs
    simp [KnowledgeQualificationStatus.rank]
  · rw [if_neg hfail]
    by_cases hcap : QualificationGateDecision.capProvisional ∈ gates.all.map (·.decision)
    · obtain ⟨d, hd, hrank⟩ := hdown _ hcap
      rw [if_pos hcap]
      cases d with
      | pass => simp [QualificationGateDecision.rank] at hrank
      | capProvisional =>
        rw [if_pos hd]
        split_ifs <;> simp [KnowledgeQualificationStatus.rank]
      | fail =>
        rw [if_pos hd]
        simp [KnowledgeQualificationStatus.rank]
    · rw [if_neg hcap]
      split_ifs <;> simp [KnowledgeQualificationStatus.rank]

/-! ## The members of a pattern with an episode added -/

section Members
variable {F : CaseFolding} {stableKey : PartitionPayload → String}
  {episodes : List ExperienceEpisodeInput} {e : ExperienceEpisodeInput} {key : String}

/-- Whether an identity is partial: only one taken from KPIs is. -/
def GoalIdentity.isPartial : GoalIdentity → Bool
  | .kpis _ => true
  | .objective _ | .exactInstance _ => false

theorem goalSignatureIdentity_some {signature : Option GoalSemanticSignature} {g : GoalIdentity}
    (h : (goalSignatureIdentity signature).1 = some g) :
    (goalSignatureIdentity signature).2 = g.isPartial := by
  cases signature with
  | none => cases h
  | some signature =>
    simp only [goalSignatureIdentity] at h ⊢
    split at h
    · cases h
      rfl
    · split at h
      · cases h
        rename_i hkpis
        rw [if_pos hkpis]
        rfl
      · cases h

/-- An identity settles what else the resolution of a goal says. -/
theorem resolvedIdentity_some {signatures : List ExperienceContextSignature}
    {signature : ExperienceContextSignature} {g : GoalIdentity}
    (h : (resolvedIdentity signatures signature).1 = some g) :
    (resolvedIdentity signatures signature).2 = (g.isPartial, false) := by
  have hobjective : ∀ goal g, (objectivesByGoal signatures goal).head? = some g →
      g.isPartial = false := by
    intro goal g hg
    have hmem := List.mem_of_head? hg
    rw [objectivesByGoal, List.mem_dedup, List.mem_filterMap] at hmem
    obtain ⟨s, -, hs⟩ := hmem
    obtain ⟨k, -, rfl⟩ := Option.map_eq_some_iff.1 hs
    rfl
  have hkpi : ∀ goal g, (kpisByGoal signatures goal).head? = some g → g.isPartial = true := by
    intro goal g hg
    have hmem := List.mem_of_head? hg
    rw [kpisByGoal, List.mem_dedup, List.mem_filterMap] at hmem
    obtain ⟨s, -, hs⟩ := hmem
    split at hs
    · cases hs
      rfl
    · cases hs
  cases hgoal : signature.exactGoalId with
  | none =>
    simp only [resolvedIdentity, hgoal] at h ⊢
    rw [goalSignatureIdentity_some h]
  | some goal =>
    simp only [resolvedIdentity, hgoal] at h ⊢
    split_ifs at h ⊢
    · rw [hobjective goal g h]
    · rw [hkpi goal g h]
    · rename_i hown
      cases h
      rw [show (goalSignatureIdentity signature.goalSemanticSignature).2 = false from ?_]
      · rfl
      · cases hs : signature.goalSemanticSignature with
        | none => rfl
        | some sig =>
          rw [hs] at hown
          simp only [goalSignatureIdentity] at hown ⊢
          split at hown
          · cases hown
          · split_ifs at hown ⊢
            rfl
    · rw [goalSignatureIdentity_some h]

theorem resolveSignature_congr {signatures others : List ExperienceContextSignature}
    {signature : ExperienceContextSignature} {g : GoalIdentity}
    (h : (resolvedIdentity signatures signature).1 = some g)
    (h' : (resolvedIdentity others signature).1 = some g) :
    resolveSignature signatures signature = resolveSignature others signature := by
  have heq : resolvedIdentity signatures signature = resolvedIdentity others signature :=
    Prod.ext (h.trans h'.symm) ((resolvedIdentity_some h).trans (resolvedIdentity_some h').symm)
  simp only [resolveSignature, heq]

/-- No other episode joins or leaves the pattern when the episode is added. -/
def KeepsMembers (F : CaseFolding) (stableKey : PartitionPayload → String)
    (episodes : List ExperienceEpisodeInput) (e : ExperienceEpisodeInput) (key : String) : Prop :=
  ∀ s ∈ episodes, partitionKey stableKey (observationOf F (e :: episodes) s).signature = some key ↔
    partitionKey stableKey (observationOf F episodes s).signature = some key

instance : Decidable (KeepsMembers F stableKey episodes e key) :=
  inferInstanceAs (Decidable (∀ s ∈ episodes,
    partitionKey stableKey (observationOf F (e :: episodes) s).signature = some key ↔
      partitionKey stableKey (observationOf F episodes s).signature = some key))

theorem KeysDistinct.mono {obs more : List Observation} (h : KeysDistinct stableKey more)
    (hsub : ∀ o ∈ obs, o ∈ more) : KeysDistinct stableKey obs :=
  fun a ha b hb => h a (hsub a ha) b (hsub b hb)

/-- A member that stays in the pattern is observed as before. -/
theorem KeepsMembers.observation_eq
    (hkeys : KeysDistinct stableKey (observations F episodes ++ observations F (e :: episodes)))
    (h : KeepsMembers F stableKey episodes e key) {s : ExperienceEpisodeInput} (hs : s ∈ episodes)
    (hkey : partitionKey stableKey (observationOf F episodes s).signature = some key) :
    observationOf F (e :: episodes) s = observationOf F episodes s := by
  obtain ⟨p, hp, hpkey⟩ := Option.map_eq_some_iff.1 hkey
  obtain ⟨q, hq, hqkey⟩ := Option.map_eq_some_iff.1 ((h s hs).2 hkey)
  have hsmall : observationOf F episodes s ∈ observations F episodes :=
    mem_observations.2 ⟨s, hs, rfl⟩
  have hlarge : observationOf F (e :: episodes) s ∈ observations F (e :: episodes) :=
    mem_observations.2 ⟨s, List.mem_cons_of_mem _ hs, rfl⟩
  have heq : q = p := hkeys _ (List.mem_append_right _ hlarge) _ (List.mem_append_left _ hsmall)
    q hq p hp (hqkey.trans hpkey.symm)
  subst heq
  have hresolved := resolveSignature_congr (partitionPayload_some hq).1 (partitionPayload_some hp).1
  exact congrArg (Observation.mk · s.signal) hresolved

/-- The members of the larger pattern are the old ones and, where it belongs to it, the new
episode. -/
theorem KeepsMembers.mem_partitionOf
    (hkeys : KeysDistinct stableKey (observations F episodes ++ observations F (e :: episodes)))
    (h : KeepsMembers F stableKey episodes e key) {o : Observation} :
    o ∈ partitionOf stableKey (observations F (e :: episodes)) key ↔
      (o = observationOf F (e :: episodes) e ∧ partitionKey stableKey o.signature = some key) ∨
        o ∈ partitionOf stableKey (observations F episodes) key := by
  simp only [partitionOf, List.mem_filter, decide_eq_true_eq, mem_observations]
  constructor
  · rintro ⟨⟨s, hs, rfl⟩, hkey⟩
    rcases List.mem_cons.1 hs with rfl | hs
    · exact Or.inl ⟨rfl, hkey⟩
    · have hold := (h s hs).1 hkey
      exact Or.inr ⟨⟨s, hs, h.observation_eq hkeys hs hold⟩, by
        rwa [h.observation_eq hkeys hs hold]⟩
  · rintro (⟨rfl, hkey⟩ | ⟨⟨s, hs, rfl⟩, hkey⟩)
    · exact ⟨⟨e, by simp, rfl⟩, hkey⟩
    · exact ⟨⟨s, by simp [hs], (h.observation_eq hkeys hs hkey).symm⟩, hkey⟩

/-- The partition of a key in the larger set has grown by the new episode at most. -/
theorem KeepsMembers.grown (hids : ((e :: episodes).map (·.episodeId)).Nodup)
    (hkeys : KeysDistinct stableKey (observations F episodes ++ observations F (e :: episodes)))
    (h : KeepsMembers F stableKey episodes e key) :
    Grown (observations F episodes) (partitionOf stableKey (observations F episodes) key)
      (observations F (e :: episodes))
      (partitionOf stableKey (observations F (e :: episodes)) key)
      (observationOf F (e :: episodes) e) := by
  refine ⟨partOf_partition (List.nodup_cons.1 hids).2 key, partOf_partition hids key, ?_, ?_, ?_⟩
  · intro o ho
    exact (h.mem_partitionOf hkeys).2 (Or.inr ho)
  · intro o ho
    rcases (h.mem_partitionOf hkeys).1 ho with ⟨rfl, -⟩ | ho
    · exact Or.inl rfl
    · exact Or.inr ho
  · intro hnew o ho
    obtain ⟨hnewObs, p, hp, hpkey⟩ := Experience.mem_partitionOf.1 hnew
    obtain ⟨hobs, q, hq, hqkey⟩ := Experience.mem_partitionOf.1 ho
    have heq := hkeys o (List.mem_append_left _ hobs) _ (List.mem_append_right _ hnewObs) q hq p hp
      (hqkey.trans hpkey.symm)
    rw [(partitionPayload_some hq).2.2.1, (partitionPayload_some hp).2.2.1, heq]

end Members

/-! ## A contradicting episode added to a set -/

section Added
variable {F : CaseFolding} {stableKey : PartitionPayload → String}
  {episodes : List ExperienceEpisodeInput} {e : ExperienceEpisodeInput} {key : String}

/-- The episode is one of the pattern in the larger set, and its outcome contradicts it. -/
structure Contradicts (F : CaseFolding) (stableKey : PartitionPayload → String)
    (episodes : List ExperienceEpisodeInput) (e : ExperienceEpisodeInput) (key : String) :
    Prop where
  key : partitionKey stableKey (observationOf F (e :: episodes) e).signature = some key
  unfavourable : baseDirection e.signal = .contradiction

/-- The episode lets no other one join or leave the pattern, and is independent of every strong
contradiction of the pattern that stands alone. -/
structure LeavesEvidence (F : CaseFolding) (stableKey : PartitionPayload → String)
    (episodes : List ExperienceEpisodeInput) (e : ExperienceEpisodeInput) (key : String) :
    Prop where
  members : KeepsMembers F stableKey episodes e key
  untouched : ∀ o ∈ partitionOf stableKey (observations F episodes) key,
    (eligibility (activeScopeConditions
      (partitionOf stableKey (observations F episodes) key)) o).tier = .strong →
    baseDirection o.signal = .contradiction →
    Isolated (partitionOf stableKey (observations F episodes) key) o →
    pairStatus o (observationOf F (e :: episodes) e) = .independent

theorem addedContradiction (hids : ((e :: episodes).map (·.episodeId)).Nodup)
    (hkeys : KeysDistinct stableKey (observations F episodes ++ observations F (e :: episodes)))
    (hcontra : Contradicts F stableKey episodes e key)
    (hleaves : LeavesEvidence F stableKey episodes e key) :
    AddedContradiction (observations F episodes)
      (partitionOf stableKey (observations F episodes) key) (observations F (e :: episodes))
      (partitionOf stableKey (observations F (e :: episodes)) key)
      (observationOf F (e :: episodes) e) := by
  have hgrown := hleaves.members.grown hids hkeys
  have hnew : observationOf F (e :: episodes) e ∈
      partitionOf stableKey (observations F (e :: episodes)) key :=
    (hleaves.members.mem_partitionOf hkeys).2 (Or.inl ⟨rfl, hcontra.key⟩)
  refine ⟨hgrown.small, hgrown.large, ?_, ?_, hcontra.unfavourable, hgrown.scopes hnew,
    hleaves.untouched⟩
  · intro o
    constructor
    · exact hgrown.mem o
    · rintro (rfl | ho)
      · exact hnew
      · exact hgrown.mem_large ho
  · intro o ho heq
    rw [List.map_cons, List.nodup_cons] at hids
    obtain ⟨s, hs, rfl⟩ := mem_observations.1 (mem_partitionOf.1 ho).1
    exact hids.1 (List.mem_map.2 ⟨s, hs, heq⟩)

theorem earliest_aware {t m : Datetime} {ts : List Datetime} (h : earliest t ts = .ok m) :
    ∀ u ∈ ts, u.aware = t.aware := by
  by_contra hmixed
  rw [not_forall] at hmixed
  obtain ⟨u, hu⟩ := hmixed
  rw [Classical.not_imp] at hu
  rw [earliest_mixed ⟨u, hu⟩] at h
  cases h

/-- The times of a candidate are in order, so qualifying it does not raise. -/
theorem temporalInvalid_false {obs : List Observation} {payload : PartitionPayload}
    {first : Observation} {context : PatternSemanticContext} {c : ExperiencePatternCandidate}
    (h : CandidateOf F stableKey obs payload first context c) : temporalInvalid c = .ok false := by
  obtain ⟨t, ht, hearliest⟩ := h.earliestAt
  obtain ⟨u, hu, hlatest⟩ := h.latestAt
  have haware := earliest_aware ht
  obtain ⟨m, hm, hmaware, hmle⟩ := earliest_ok haware
  obtain ⟨n, hn, hnaware, hnle⟩ := latest_ok haware
  rw [ht] at hm
  rw [hu] at hn
  cases hm
  cases hn
  have hnot : ¬u.instant < t.instant := by omega
  simp only [temporalInvalid, hearliest, hlatest, Datetime.lt_eq,
    if_pos (hnaware.trans hmaware.symm), decide_eq_false hnot]

theorem qualify_eq {obs : List Observation} {payload : PartitionPayload}
    {first : Observation} {context : PatternSemanticContext} {c : ExperiencePatternCandidate}
    (h : CandidateOf F stableKey obs payload first context c) :
    ∃ q, qualifyPatternKnowledge c = .ok q ∧
      q.status = qualificationStatus c.recurrence.strength (qualificationGates c false) := by
  rw [qualifyPatternKnowledge, temporalInvalid_false h]
  exact ⟨_, rfl, rfl⟩

theorem derived_basis {s : ExperienceEpisodeInput} {intervention : String}
    (h : (deriveContextSignature F s).recommendationClass = some intervention) :
    ∃ b, (deriveContextSignature F s).interventionSemanticBasis = some b := by
  simp only [deriveContextSignature] at h ⊢
  cases ho : norm F s.signal.interventionKey with
  | some x => exact ⟨.decisionOwner, by simp⟩
  | none =>
    rw [ho, Option.none_or] at h
    exact ⟨.legacyExperienceFallback, by simp [h]⟩

theorem goalBasis_exact {sig : ExperienceContextSignature} {identity : GoalIdentity} :
    goalBasis sig (some identity) = some .exactGoalInstanceFallback ↔
      ∃ goal, identity = .exactInstance goal := by
  cases identity with
  | objective k => simp only [goalBasis, Option.some_inj]; split <;> simp
  | kpis ks => simp only [goalBasis, Option.some_inj]; split <;> simp
  | exactInstance g => simp [goalBasis]

theorem shared_ne_nil {α : Type*} [DecidableEq α] {xss : List (List α)} (h : shared xss ≠ []) :
    ∀ xs ∈ xss, xs = shared xss := by
  cases xss with
  | nil => simp
  | cons xs rest =>
    rw [shared] at h ⊢
    split at h
    · rename_i hall
      rw [if_pos hall]
      intro ys hys
      rcases List.mem_cons.1 hys with rfl | hys
      · rfl
      · exact hall ys hys
    · exact absurd rfl h

theorem canonicalKpis_eq_nil {xs : List KpiSemanticSignature} :
    canonicalKpis xs = [] ↔ xs = [] := by
  constructor
  · intro h
    apply List.eq_nil_iff_forall_not_mem.2
    intro x hx
    have hmem : x ∈ canonicalKpis xs := by
      rw [canonicalKpis, List.mem_insertionSort, List.mem_dedup]
      exact hx
    rw [h] at hmem
    cases hmem
  · rintro rfl
    rfl

theorem mem_canonicalInterventionBases {xs : List InterventionSemanticBasis}
    {b : InterventionSemanticBasis} : b ∈ canonicalInterventionBases xs ↔ b ∈ xs := by
  cases b <;> simp [canonicalInterventionBases]

theorem mem_canonicalGoalBases {xs : List GoalSemanticBasis} {b : GoalSemanticBasis} :
    b ∈ canonicalGoalBases xs ↔ b ∈ xs := by
  cases b <;> simp [canonicalGoalBases]

/-- The bases of an observation of a partition are known. -/
theorem partitioned_bases {o : Observation} (ho : o ∈ observations F episodes)
    {payload : PartitionPayload} (hp : partitionPayload o.signature = some payload) :
    (∃ b, o.signature.interventionSemanticBasis = some b) ∧
      ∃ sig b, o.signature.goalSemanticBasis = some b ∧
        goalBasis sig (some payload.goalId) = some b := by
  obtain ⟨s, _, rfl⟩ := mem_observations.1 ho
  obtain ⟨hidentity, hclass, -, -⟩ := partitionPayload_some hp
  refine ⟨derived_basis hclass, deriveContextSignature F s, ?_⟩
  have hbasis : (observationOf F episodes s).signature.goalSemanticBasis =
      goalBasis (deriveContextSignature F s) (some payload.goalId) := by
    rw [← hidentity]
    rfl
  rw [hbasis]
  cases payload.goalId with
  | objective k => exact ⟨_, rfl, rfl⟩
  | kpis ks => exact ⟨_, rfl, rfl⟩
  | exactInstance g => exact ⟨_, rfl, rfl⟩

section Context
variable {obs : List Observation} {payload : PartitionPayload} {first : Observation}
  {context : PatternSemanticContext} {c : ExperiencePatternCandidate}

/-- The intervention bases of a candidate are those of its episodes. -/
theorem mem_interventionBases (h : CandidateOf F stableKey obs payload first context c)
    {b : InterventionSemanticBasis} : b ∈ context.interventionSemanticBases ↔
      ∃ o ∈ partitionOf stableKey obs c.partitionKey,
        o.signature.interventionSemanticBasis = some b := by
  rw [h.contextOf.interventionBases, mem_canonicalInterventionBases, List.mem_filterMap]
  simp only [List.mem_map, exists_exists_and_eq_and]

/-- The goal bases of a candidate are those of its episodes. -/
theorem mem_goalBases (h : CandidateOf F stableKey obs payload first context c)
    {b : GoalSemanticBasis} : b ∈ context.goalSemanticBases ↔
      ∃ o ∈ partitionOf stableKey obs c.partitionKey, o.signature.goalSemanticBasis = some b := by
  rw [h.contextOf.goalBases, mem_canonicalGoalBases, List.mem_filterMap]
  simp only [List.mem_map, exists_exists_and_eq_and]

theorem conflictingScope_nil (h : CandidateOf F stableKey obs payload first context c)
    (hkeys : KeysDistinct stableKey obs) : c.conflictingScopeConditions = [] := by
  rw [h.conflictingScope]
  apply List.filter_eq_nil_iff.2
  intro x hx
  rw [mem_sortedSet, List.mem_flatMap] at hx
  obtain ⟨o, ho, hx⟩ := hx
  rw [(partitionPayload_some (h.payload_eq hkeys ho)).2.2.1] at hx
  simpa [h.scope_eq hkeys] using hx

/-- KPIs that all episodes of the larger set share are those that the smaller set shares. -/
theorem sharedKpis_of_large {payload' : PartitionPayload} {first' : Observation}
    {context' : PatternSemanticContext} {c' : ExperiencePatternCandidate} {obs' : List Observation}
    (h : CandidateOf F stableKey obs payload first context c)
    (h' : CandidateOf F stableKey obs' payload' first' context' c')
    (hmem : ∀ o ∈ partitionOf stableKey obs c.partitionKey,
      o ∈ partitionOf stableKey obs' c'.partitionKey)
    (hne : context'.commonKpiSemanticSignatures ≠ []) :
    context.commonKpiSemanticSignatures ≠ [] := by
  rw [h'.contextOf.kpis, Ne, canonicalKpis_eq_nil] at hne
  have hall := shared_ne_nil hne
  have hshared : shared (((partitionOf stableKey obs c.partitionKey).map (·.signature)).map
      ownerKpis) = shared (((partitionOf stableKey obs' c'.partitionKey).map (·.signature)).map
        ownerKpis) := by
    apply shared_const
    · simpa using List.ne_nil_of_mem (List.mem_of_head? h.head)
    · intro xs hxs
      simp only [List.map_map, List.mem_map] at hxs
      obtain ⟨o, ho, rfl⟩ := hxs
      apply hall
      rw [List.map_map]
      exact List.mem_map_of_mem (hmem o ho)
  rw [h.contextOf.kpis, Ne, canonicalKpis_eq_nil, hshared]
  exact hne

end Context

theorem contradiction_narrows (hids : ((e :: episodes).map (·.episodeId)).Nodup)
    (hkeys : KeysDistinct stableKey (observations F episodes ++ observations F (e :: episodes)))
    (hcontra : Contradicts F stableKey episodes e key)
    (hleaves : LeavesEvidence F stableKey episodes e key)
    {payload payload' : PartitionPayload} {first first' : Observation}
    {context context' : PatternSemanticContext} {c c' : ExperiencePatternCandidate}
    (h : CandidateOf F stableKey (observations F episodes) payload first context c)
    (h' : CandidateOf F stableKey (observations F (e :: episodes)) payload' first' context' c')
    (hc : c.partitionKey = key) (hc' : c'.partitionKey = key)
    (hrank : c'.recurrence.strength.rank ≤ c.recurrence.strength.rank)
    (hfavourable : 3 ≤ c'.recurrence.strength.rank) : Narrower c c' context context' := by
  subst hc
  have hadded := addedContradiction hids hkeys hcontra hleaves
  have hkeysSmall := hkeys.mono fun o ho => List.mem_append_left _ ho
  have hkeysLarge := hkeys.mono fun o ho => List.mem_append_right _ ho
  have hfirst := List.mem_of_head? h.head
  have hfirst' := List.mem_of_head? h'.head
  have hlarge : ∀ o ∈ partitionOf stableKey (observations F (e :: episodes)) c.partitionKey,
      partitionPayload o.signature = some payload' := by
    intro o ho
    exact h'.payload_eq hkeysLarge (hc' ▸ ho)
  have hsame : payload = payload' := by
    have h1 := h.payload_eq hkeysSmall hfirst
    rw [hlarge first (hadded.mem_large hfirst), Option.some_inj] at h1
    exact h1.symm
  have hpay := partitionPayload_some (h.payload_eq hkeysSmall hfirst)
  have hpay' := partitionPayload_some (h'.payload_eq hkeysLarge hfirst')
  obtain ⟨s, hs, hstrength, hsupport, hcontradiction⟩ := assessment_strength h.assessed
  obtain ⟨s', hs', hstrength', hsupport', hcontradiction'⟩ := assessment_strength h'.assessed
  have hscope : c.commonScopeConditions = c'.commonScopeConditions := by
    rw [h.scope_eq hkeysSmall, h'.scope_eq hkeysLarge, hsame]
  have hmem : ∀ o ∈ partitionOf stableKey (observations F episodes) c.partitionKey,
      o ∈ partitionOf stableKey (observations F (e :: episodes)) c'.partitionKey := by
    intro o ho
    rw [hc']
    exact hadded.mem_large ho
  have hbases := partitioned_bases (hadded.small.mem hfirst) (h.payload_eq hkeysSmall hfirst)
  constructor
  · exact h.semanticContext
  · exact h'.semanticContext
  · obtain ⟨types, htypes, heq⟩ := h.contextOf.subjects
    obtain ⟨types', htypes', heq'⟩ := h'.contextOf.subjects
    rw [hpay.2.2.2, hsame] at htypes
    rw [hpay'.2.2.2, htypes] at htypes'
    cases htypes'
    rw [heq, heq']
  · rw [h.contextOf.intervention, h'.contextOf.intervention, hpay.2.1, hpay'.2.1, hsame]
  · rw [h.contextOf.objective, h'.contextOf.objective, hpay.1, hpay'.1, hsame]
  · rw [h.contextOf.scope, h'.contextOf.scope, hscope]
  · exact sharedKpis_of_large h h' hmem
  · intro b hb
    obtain ⟨o, ho, hbasis⟩ := (mem_interventionBases h).1 hb
    exact (mem_interventionBases h').2 ⟨o, hmem o ho, hbasis⟩
  · intro b hb
    obtain ⟨o, ho, hbasis⟩ := (mem_goalBases h).1 hb
    exact (mem_goalBases h').2 ⟨o, hmem o ho, hbasis⟩
  · obtain ⟨b, hb⟩ := hbases.1
    exact List.ne_nil_of_mem ((mem_interventionBases h).2 ⟨first, hfirst, hb⟩)
  · obtain ⟨_, b, hb, -⟩ := hbases.2
    exact List.ne_nil_of_mem ((mem_goalBases h).2 ⟨first, hfirst, hb⟩)
  · intro hexact b hb
    obtain ⟨sig, b₀, hb₀, hgoal⟩ := hbases.2
    rw [hexact b₀ ((mem_goalBases h).2 ⟨first, hfirst, hb₀⟩), goalBasis_exact] at hgoal
    obtain ⟨goal, hgoal⟩ := hgoal
    obtain ⟨o, ho, hb⟩ := (mem_goalBases h').1 hb
    obtain ⟨-, sig', b', hb', hgoal'⟩ := partitioned_bases (mem_partitionOf.1 ho).1
      (h'.payload_eq hkeysLarge ho)
    rw [hb', Option.some_inj] at hb
    rw [← hsame, hgoal, goalBasis_exact.2 ⟨goal, rfl⟩, Option.some_inj] at hgoal'
    rw [← hb, hgoal']
  · exact h.valid
  · exact conflictingScope_nil h hkeysSmall
  · rw [hsupport, hsupport', hc']
    exact hadded.strongSupport_le
  · intro hsupported
    rw [hcontradiction, (recurrenceStrength_supported hs (hstrength ▸ hsupported)).2]
    rfl
  · exact hrank
  · exact hfavourable

/-- The status of the pattern is at least what its strength leaves open. -/
theorem patternStatus_ge {r : ExperienceIntelligenceResult}
    (hr : evaluateExperienceSet F stableKey episodes = .ok r) (key : String) :
    min (patternStrength r key) 2 ≤ patternStatus r key := by
  cases hp : patternOf r key with
  | none => simp [patternStrength, patternStatus, hp, RecurrenceStrength.rank,
      KnowledgeQualificationStatus.rank]
  | some c =>
    obtain ⟨payload, first, context, hspec⟩ := candidate_spec hr (patternOf_some hp).1
    obtain ⟨q, hq, hstatus⟩ := qualify_eq hspec
    have hge := strength_le_status c.recurrence.strength (qualificationGates c false)
    simp only [patternStrength, patternStatus, hp, hq, Option.map_some, Option.getD_some,
      Option.bind_some, Except.toOption, hstatus]
    exact hge

/-- An episode that contradicts a pattern and leaves its evidence alone raises neither the
strength nor the status of the pattern. -/
theorem contradiction_never_strengthens
    (hkeys : KeysDistinct stableKey (observations F episodes ++ observations F (e :: episodes)))
    (hcontra : Contradicts F stableKey episodes e key)
    (hleaves : LeavesEvidence F stableKey episodes e key) :
    NotStrengthened F stableKey episodes e key := by
  intro r r' hr hr' c' hc' hkey
  have hids := (evaluate_ok hr').1
  have hadded := addedContradiction hids hkeys hcontra hleaves
  obtain ⟨payload', first', context', hspec'⟩ := candidate_spec hr' hc'
  obtain ⟨s', hs', hstrength'⟩ := candidate_rank hspec'
  have hrank : c'.recurrence.strength.rank ≤ patternStrength r key := by
    rw [patternStrength_eq hr, hstrength']
    exact hadded.strength_le (hkey ▸ hs')
  refine ⟨hrank, ?_⟩
  intro q hq
  obtain ⟨q', hq', hstatus'⟩ := qualify_eq hspec'
  rw [hq] at hq'
  cases hq'
  rw [hstatus']
  by_cases hlow : c'.recurrence.strength.rank ≤ 2
  · have hle := status_le_strength false hlow
    exact hle.trans ((le_min hrank hlow).trans (patternStatus_ge hr key))
  · -- the pattern had a candidate of its own before
    cases hp : patternOf r key with
    | none =>
      simp only [patternStrength, hp, Option.map_none, Option.getD_none] at hrank
      exact absurd hrank hlow
    | some c =>
      obtain ⟨hc, hckey⟩ := patternOf_some hp
      obtain ⟨payload, first, context, hspec⟩ := candidate_spec hr hc
      simp only [patternStrength, hp, Option.map_some, Option.getD_some] at hrank
      have hnarrow := contradiction_narrows hids hkeys hcontra hleaves hspec hspec' hckey hkey
        hrank (by omega)
      obtain ⟨p, hp', hstatus⟩ := qualify_eq hspec
      simp only [patternStatus, hp, hp', Option.bind_some, Except.toOption, Option.map_some,
        Option.getD_some, hstatus]
      apply status_le_status (by omega) (by omega)
      simp only [KnowledgeQualificationGates.all, qualificationGates, List.forall₂_cons,
        List.forall₂_nil_left_iff]
      exact ⟨hnarrow.semantic_le, hnarrow.intervention_le, hnarrow.goal_le, hnarrow.recurrence_le,
        hnarrow.support_gate_le, hnarrow.contradiction_le, hnarrow.scope_le, le_rfl, trivial⟩

end Added

/-! ## A dependent copy of the only contradiction -/

/-- The sample support with one strong contradiction that stands alone. -/
def contestedSample : List ExperienceEpisodeInput :=
  sampleSupport ++ [sampleEpisode "d" (sampleSignal "d" .ineffective)]

/-- A second episode of the contradicting signal. -/
def copiedContradiction : ExperienceEpisodeInput :=
  sampleEpisode "e" (sampleSignal "d" .ineffective)

def sampleKeyOf (e : ExperienceEpisodeInput) : String :=
  ((partitionPayload (observationOf plainFolding [e] e).signature).map sampleKey).getD ""

/-- Whether the pattern gets a better strength with the episode added. -/
def strengthens (F : CaseFolding) (stableKey : PartitionPayload → String)
    (episodes : List ExperienceEpisodeInput) (e : ExperienceEpisodeInput) (key : String) : Bool :=
  match evaluateExperienceSet F stableKey episodes,
      evaluateExperienceSet F stableKey (e :: episodes) with
  | .ok r, .ok r' => r'.patternCandidates.any fun c =>
      c.partitionKey = key && patternStrength r key < c.recurrence.strength.rank
  | _, _ => false

theorem not_notStrengthened {F : CaseFolding} {stableKey : PartitionPayload → String}
    {episodes : List ExperienceEpisodeInput} {e : ExperienceEpisodeInput} {key : String}
    (h : strengthens F stableKey episodes e key = true) :
    ¬NotStrengthened F stableKey episodes e key := by
  intro hnot
  simp only [strengthens] at h
  split at h
  · rename_i r r' hr hr'
    obtain ⟨c, hc, hbetter⟩ := List.any_eq_true.1 h
    simp only [Bool.and_eq_true, decide_eq_true_eq] at hbetter
    exact absurd (hnot r r' hr hr' c hc hbetter.1).1 (not_le.2 hbetter.2)
  · cases h

/-- The copy takes the independence of the only contradiction away: the contested pattern comes
out supported and qualified. -/
theorem copied_contradiction_strengthens :
    Contradicts plainFolding sampleKey contestedSample copiedContradiction
      (sampleKeyOf copiedContradiction) ∧
    patternStatuses plainFolding sampleKey contestedSample = [(.contested, some .contested)] ∧
    patternStatuses plainFolding sampleKey (copiedContradiction :: contestedSample) =
      [(.supported, some .qualified)] ∧
    ¬NotStrengthened plainFolding sampleKey contestedSample copiedContradiction
      (sampleKeyOf copiedContradiction) := by
  refine ⟨⟨by decide +kernel, rfl⟩, by decide +kernel, by decide +kernel, ?_⟩
  exact not_notStrengthened (by decide +kernel)

/-- A contradiction of its own next to the first one. -/
def independentContradiction : ExperienceEpisodeInput :=
  sampleEpisode "e" (sampleSignal "e" .counterproductive)

instance (part : List Observation) (o : Observation) : Decidable (Isolated part o) :=
  inferInstanceAs (Decidable (∀ x ∈ part, x.id ≠ o.id → pairStatus o x = .independent))

theorem independent_contradiction_never_strengthens :
    NotStrengthened plainFolding sampleKey contestedSample independentContradiction
      (sampleKeyOf independentContradiction) :=
  contradiction_never_strengthens (by decide +kernel) ⟨by decide +kernel, rfl⟩
    ⟨by decide +kernel, by decide +kernel⟩

end Ajenda.Experience
