import Ajenda.ExperiencePartitions
import Ajenda.KnowledgeQualification

/-!
# Qualified knowledge rests on independent support

What a candidate of an evaluation is made of (`candidate_spec`), what strong evidence is
(`eligibility_strong`), and what the gates of a qualified candidate leave: three or more strong
supporting episodes of one intervention, subject, objective and scope, no two of which are
related, and no strong contradiction that is independent of the rest of the pattern.
-/
namespace Ajenda.Experience

variable {F : CaseFolding} {stableKey : PartitionPayload → String}

/-! ## The candidates of an evaluation -/

theorem candidatesOf_mem {obs : List Observation} {cs : List ExperienceComparison}
    {keys : List String} {candidates : List ExperiencePatternCandidate}
    (h : candidatesOf F stableKey obs cs keys = .ok candidates) {c : ExperiencePatternCandidate} :
    c ∈ candidates ↔ ∃ key ∈ keys, partitionCandidate F stableKey obs cs key = .ok (some c) := by
  induction keys generalizing candidates with
  | nil =>
    cases h
    simp
  | cons key rest ih =>
    rw [candidatesOf] at h
    cases hp : partitionCandidate F stableKey obs cs key with
    | error e =>
      rw [hp] at h
      cases h
    | ok found =>
      cases hr : candidatesOf F stableKey obs cs rest with
      | error e =>
        rw [hp, hr] at h
        cases h
      | ok others =>
        rw [hp, hr] at h
        obtain rfl : found.toList ++ others = candidates := Except.ok.inj h
        have hfound : c ∈ found.toList ↔ found = some c := by
          cases found <;> simp [eq_comm]
        simp [hfound, ih hr, hp]

theorem evaluate_ok {episodes : List ExperienceEpisodeInput} {r : ExperienceIntelligenceResult}
    (h : evaluateExperienceSet F stableKey episodes = .ok r) :
    (episodes.map (·.episodeId)).Nodup ∧
      candidatesOf F stableKey (observations F episodes)
        (comparisons ((observations F episodes).map (·.signature)))
        (partitionKeys stableKey (observations F episodes)) = .ok r.patternCandidates := by
  simp only [evaluateExperienceSet] at h
  split at h
  · cases h
  · rename_i hnodup
    refine ⟨not_not.1 hnodup, ?_⟩
    cases hc : candidatesOf F stableKey (observations F episodes)
        (comparisons ((observations F episodes).map (·.signature)))
        (partitionKeys stableKey (observations F episodes)) with
    | error e =>
      rw [hc] at h
      cases h
    | ok candidates =>
      rw [hc] at h
      cases h
      rfl

/-- What the context of a partition holds. -/
structure ContextOf (F : CaseFolding) (first : ExperienceContextSignature)
    (sigs : List ExperienceContextSignature) (commonScope invalidations : List String)
    (context : PatternSemanticContext) : Prop where
  subjects : ∃ types, subjectSignatures first.semanticSubjectTypes = .ok types ∧
    context.subjectSemanticSignatures = canonicalSubjects types
  intervention : context.interventionKey = first.recommendationClass.getD ""
  interventionBases : context.interventionSemanticBases =
    canonicalInterventionBases (sigs.filterMap (·.interventionSemanticBasis))
  objective : context.objectiveKey = objectiveKeyOf first.resolvedGoalPartitionIdentity
  kpis : context.commonKpiSemanticSignatures = canonicalKpis (shared (sigs.map ownerKpis))
  goalBases : context.goalSemanticBases =
    canonicalGoalBases (sigs.filterMap (·.goalSemanticBasis))
  scope : context.scopeConditions = canonicalSemanticValues F commonScope
  invalidations : context.invalidationConditions = canonicalSemanticValues F invalidations

theorem patternSemanticContext_ok {first : ExperienceContextSignature}
    {sigs : List ExperienceContextSignature} {commonScope invalidations : List String}
    {context : PatternSemanticContext}
    (h : patternSemanticContext F first sigs commonScope invalidations = .ok context) :
    ContextOf F first sigs commonScope invalidations context := by
  rw [patternSemanticContext] at h
  cases hs : subjectSignatures first.semanticSubjectTypes with
  | error e =>
    rw [hs] at h
    cases h
  | ok types =>
    rw [hs] at h
    cases h
    exact ⟨⟨types, hs, rfl⟩, rfl, rfl, rfl, rfl, rfl, rfl, rfl⟩

/-- A candidate, the partition it was made of and the payload kept for its key. -/
structure CandidateOf (F : CaseFolding) (stableKey : PartitionPayload → String)
    (obs : List Observation) (payload : PartitionPayload) (first : Observation)
    (context : PatternSemanticContext) (c : ExperiencePatternCandidate) : Prop where
  assessed : assessmentFromUnits (partitionUnits (partitionOf stableKey obs c.partitionKey)
    (comparisons (obs.map (·.signature)))) = some c.recurrence
  head : (partitionOf stableKey obs c.partitionKey).head? = some first
  last : (partitionOf stableKey obs c.partitionKey).getLast?.bind
    (partitionPayload ·.signature) = some payload
  recommendationClass : c.recommendationClass = payload.recommendationClass
  subjectTypes : c.subjectTypes = payload.subjectTypes
  goalId : c.goalId = payload.goalId
  commonScope : c.commonScopeConditions =
    shared ((partitionOf stableKey obs c.partitionKey).map (·.signature.scopeConditions))
  conflictingScope : c.conflictingScopeConditions =
    (sortedSet ((partitionOf stableKey obs c.partitionKey).flatMap
      (·.signature.scopeConditions))).filter (· ∉ c.commonScopeConditions)
  earliestAt : ∃ t, earliest first.signal.evaluatedAt
    ((partitionOf stableKey obs c.partitionKey).tail.map (·.signal.evaluatedAt)) = .ok t ∧
      c.earliestEvaluatedAt = some t
  latestAt : ∃ t, latest first.signal.evaluatedAt
    ((partitionOf stableKey obs c.partitionKey).tail.map (·.signal.evaluatedAt)) = .ok t ∧
      c.latestEvaluatedAt = some t
  semanticContext : c.semanticContext = some context
  contextOf : ContextOf F first.signature
    ((partitionOf stableKey obs c.partitionKey).map (·.signature)) c.commonScopeConditions
    c.invalidationConditions context
  valid : validateCandidate c = .ok c

theorem validateCandidate_ok {c d : ExperiencePatternCandidate}
    (h : validateCandidate c = .ok d) : d = c := by
  simp only [validateCandidate] at h
  split at h
  · cases h
    rfl
  · split at h
    · cases h
    · cases h
      rfl

theorem partitionCandidate_some {obs : List Observation} {key : String}
    {c : ExperiencePatternCandidate}
    (h : partitionCandidate F stableKey obs (comparisons (obs.map (·.signature))) key =
      .ok (some c)) :
    c.partitionKey = key ∧
      ∃ payload first context, CandidateOf F stableKey obs payload first context c := by
  simp only [partitionCandidate] at h
  split at h
  · rename_i assessment first payload hassess hfirst hlast
    cases hp : patternCandidate F key payload first (partitionOf stableKey obs key)
        (comparisons (obs.map (·.signature))) assessment with
    | error e =>
      rw [hp] at h
      cases h
    | ok d =>
      rw [hp] at h
      obtain rfl : d = c := by simpa [Except.map] using h
      simp only [patternCandidate, bind, Except.bind] at hp
      split at hp
      · cases hp
      · rename_i t1 ht1
        split at hp
        · cases hp
        · rename_i t2 ht2
          split at hp
          · cases hp
          · rename_i context hcontext
            have hd := validateCandidate_ok hp
            have hvalid := hp
            rw [← hd] at hvalid
            have hspec := patternSemanticContext_ok hcontext
            subst hd
            refine ⟨rfl, payload, first, context, ?_⟩
            constructor
            · exact hassess
            · exact hfirst
            · exact hlast
            · rfl
            · rfl
            · rfl
            · simp [List.map_map, Function.comp_def]
            · simp [List.flatMap_map]
            · exact ⟨t1, ht1, rfl⟩
            · exact ⟨t2, ht2, rfl⟩
            · rfl
            · exact hspec
            · exact hvalid
  · cases h

theorem candidate_spec {episodes : List ExperienceEpisodeInput}
    {r : ExperienceIntelligenceResult} (h : evaluateExperienceSet F stableKey episodes = .ok r)
    {c : ExperiencePatternCandidate} (hc : c ∈ r.patternCandidates) :
    ∃ payload first context,
      CandidateOf F stableKey (observations F episodes) payload first context c := by
  obtain ⟨key, _, hkey⟩ := (candidatesOf_mem (evaluate_ok h).2).1 hc
  exact (partitionCandidate_some hkey).2

/-! ## Strong evidence -/

/-- Strong evidence was executed as recommended or is a business-impact observation. -/
theorem eligibility_strong {active : List String} {o : Observation}
    (h : (eligibility active o).tier = .strong) :
    (o.signature.executionFidelity = .executedAsRecommended ∨
        o.signature.executionFidelity = .executionUnknown ∧ businessImpact o.signal = true) ∧
      (eligibility active o).direction = baseDirection o.signal := by
  simp only [eligibility, excludedEligibility] at h ⊢
  split at h
  · cases h
  split at h
  · cases h
  split at h
  · cases h
  split at h
  · cases h
  split at h
  · cases h
  rename_i h1 h2 h3 h4 h5
  rw [if_neg h1, if_neg h2, if_neg h3, if_neg h4, if_neg h5]
  refine ⟨?_, rfl⟩
  dsimp only at h
  split at h
  · cases h
  rename_i hstrong
  cases hf : o.signature.executionFidelity with
  | notExecuted => exact absurd hf h2
  | partiallyExecuted => simp [hf] at hstrong
  | executedAsRecommended => exact Or.inl rfl
  | executedWithMaterialVariation => exact absurd hf h4
  | executionUnknown => exact Or.inr ⟨rfl, by simpa [hf] using h3⟩

theorem recurrenceStrength_supported {units : List EvidenceUnit}
    {s : RecurrenceStrength × List String} (h : recurrenceStrength units = some s)
    (hs : s.1 = .supported) :
    3 ≤ (strongIndependent (supportUnits units)).length ∧
      strongIndependent (contradictionUnits units) = [] := by
  simp only [recurrenceStrength] at h
  split at h
  · cases h
  split at h
  · cases h
    cases hs
  split at h
  · cases h
    cases hs
  rename_i _ _ hcontested
  split at h
  · rename_i hthree
    refine ⟨hthree, ?_⟩
    by_contra hne
    have hsupport : supportUnits units ≠ [] := by
      intro hnil
      simp [hnil, strongIndependent] at hthree
    exact hcontested ⟨hne, Or.inl hsupport⟩
  split at h
  · cases h
    dsimp only at hs
    split at hs <;> cases hs
  split at h
  · cases h
    cases hs
  · cases h

theorem assessment_strength {units : List EvidenceUnit} {a : RecurrenceAssessment}
    (h : assessmentFromUnits units = some a) :
    ∃ s, recurrenceStrength units = some s ∧ a.strength = s.1 ∧
      a.independentSupportCount = (strongIndependent (supportUnits units)).length ∧
      a.strongIndependentContradictionCount =
        (strongIndependent (contradictionUnits units)).length := by
  simp only [assessmentFromUnits, Option.map_eq_some_iff] at h
  obtain ⟨s, hs, rfl⟩ := h
  exact ⟨s, hs, rfl, rfl, rfl⟩

/-! ## What a qualified candidate passed -/

theorem qualified_gates {c : ExperiencePatternCandidate} {q : KnowledgeQualificationResult}
    (hq : qualifyPatternKnowledge c = .ok q) (hs : q.status = .qualified) :
    (goalGate c).decision = .pass ∧ c.recurrence.strength = .supported := by
  rw [qualifyPatternKnowledge] at hq
  cases ht : temporalInvalid c with
  | error e =>
    rw [ht] at hq
    cases hq
  | ok invalid =>
    rw [ht] at hq
    cases hq
    dsimp only [qualificationStatus] at hs
    split at hs
    · cases hs
    split at hs
    · cases hs
    split at hs
    · cases hs
    rename_i hfail
    split at hs
    · cases hs
    rename_i hcap
    have hpass : ∀ g ∈ (qualificationGates c invalid).all, g.decision = .pass := by
      intro g hg
      cases hd : g.decision with
      | pass => rfl
      | fail => exact absurd (List.mem_map.2 ⟨g, hg, hd⟩) hfail
      | capProvisional => exact absurd (List.mem_map.2 ⟨g, hg, hd⟩) hcap
    refine ⟨hpass _ (by simp [KnowledgeQualificationGates.all, qualificationGates]), ?_⟩
    have hrec := hpass (recurrenceGate c)
      (by simp [KnowledgeQualificationGates.all, qualificationGates])
    cases hstrength : c.recurrence.strength <;>
      simp_all [recurrenceGate, gate, recurrenceDecision]

theorem goalGate_pass {c : ExperiencePatternCandidate} (h : (goalGate c).decision = .pass) :
    ∃ context objective, c.semanticContext = some context ∧
      context.objectiveKey = some objective ∧
      ∀ b ∈ context.goalSemanticBases, b = .ownerExplicitObjective := by
  simp only [goalGate, gate] at h
  split at h
  · cases h
  split at h
  · rename_i hpass
    cases hcontext : c.semanticContext with
    | none => simp [hcontext] at hpass
    | some context =>
      simp only [hcontext, Option.bind_some, Option.map_some, Option.getD_some] at hpass
      obtain ⟨objective, hobjective⟩ := Option.isSome_iff_exists.1 hpass.1
      simp only [nonEmpty, Option.filter_eq_some_iff] at hobjective
      exact ⟨context, objective, rfl, hobjective.1, hpass.2⟩
  · cases h

/-- Two signatures that share no signal, decision, lineage, evidence or subject. -/
structure Unrelated (a b : ExperienceContextSignature) : Prop where
  signal : a.exactSignalId ≠ b.exactSignalId
  decision : a.exactDecisionId ≠ b.exactDecisionId
  lineage : ∀ k ∈ a.lineageDependenceKeys, k ∉ b.lineageDependenceKeys
  evidence : ∀ i ∈ a.supportingEvidenceIds, i ∉ b.supportingEvidenceIds
  subject : ∀ r ∈ a.exactSubjectRefs, r ∉ b.exactSubjectRefs

theorem Unrelated.symm {a b : ExperienceContextSignature} (h : Unrelated a b) : Unrelated b a where
  signal := h.signal.symm
  decision := h.decision.symm
  lineage k hk hk' := h.lineage k hk' hk
  evidence i hi hi' := h.evidence i hi' hi
  subject r hr hr' := h.subject r hr' hr

theorem pairIndependence_unrelated {a b : ExperienceContextSignature}
    (h : (pairIndependence a b).1 = .independent) : Unrelated a b := by
  simp only [pairIndependence] at h
  split at h
  · cases h
  rename_i hhard
  split at h
  · cases h
  rename_i hsoft
  simp only [not_or, Bool.not_eq_true, Bool.or_eq_true] at hhard hsoft
  exact ⟨hhard.1, hhard.2.1, overlap_false.1 hhard.2.2, overlap_false.1 hsoft.1,
    overlap_false.1 hsoft.2⟩

theorem pairStatus_unrelated {a b : Observation} (hlt : a.id < b.id)
    (h : pairStatus a b = .independent) : Unrelated a.signature b.signature := by
  have hnot : ¬b.signature.episodeId < a.signature.episodeId := hlt.asymm
  apply pairIndependence_unrelated
  simpa [pairStatus, compareSignatures, hnot] using h

/-- Two isolated episodes of a partition are unrelated. -/
theorem unrelated_of_isolated {part : List Observation} {a b : Observation} (ha : a ∈ part)
    (hb : b ∈ part) (haiso : Isolated part a) (hbiso : Isolated part b) (hne : a.id ≠ b.id) :
    Unrelated a.signature b.signature := by
  rcases lt_or_gt_of_ne hne with hlt | hlt
  · exact pairStatus_unrelated hlt (haiso b hb hlt.ne')
  · exact (pairStatus_unrelated hlt (hbiso a ha hlt.ne')).symm

/-! ## Partitions of one payload -/

/-- The keys of the payloads of a set do not collide. -/
def KeysDistinct (stableKey : PartitionPayload → String) (obs : List Observation) : Prop :=
  ∀ a ∈ obs, ∀ b ∈ obs, ∀ p ∈ partitionPayload a.signature, ∀ q ∈ partitionPayload b.signature,
    stableKey p = stableKey q → p = q

instance (obs : List Observation) : Decidable (KeysDistinct stableKey obs) :=
  inferInstanceAs (Decidable (∀ a ∈ obs, ∀ b ∈ obs, ∀ p ∈ partitionPayload a.signature,
    ∀ q ∈ partitionPayload b.signature, stableKey p = stableKey q → p = q))

theorem partitionPayload_some {sig : ExperienceContextSignature} {p : PartitionPayload}
    (h : partitionPayload sig = some p) :
    sig.resolvedGoalPartitionIdentity = some p.goalId ∧
      sig.recommendationClass = some p.recommendationClass ∧
      sig.scopeConditions = p.scopeConditions ∧ sig.semanticSubjectTypes = p.subjectTypes := by
  simp only [partitionPayload] at h
  split at h
  · cases h
  split at h
  · rename_i intervention identity hintervention hidentity
    split at h
    · cases h
    · cases h
      simp only [nonEmpty, Option.filter_eq_some_iff] at hintervention
      exact ⟨hidentity, hintervention.1, rfl, rfl⟩
  · cases h

theorem mem_partitionOf {obs : List Observation} {key : String} {o : Observation} :
    o ∈ partitionOf stableKey obs key ↔
      o ∈ obs ∧ ∃ p, partitionPayload o.signature = some p ∧ stableKey p = key := by
  simp [partitionOf, partitionKey, Option.map_eq_some_iff]

theorem partOf_partition {episodes : List ExperienceEpisodeInput}
    (h : (episodes.map (·.episodeId)).Nodup) (key : String) :
    PartOf (observations F episodes) (partitionOf stableKey (observations F episodes) key) :=
  ⟨observations_sorted h, List.filter_sublist⟩

theorem shared_const {α : Type*} [DecidableEq α] {xss : List (List α)} {ys : List α}
    (hne : xss ≠ []) (h : ∀ xs ∈ xss, xs = ys) : shared xss = ys := by
  cases xss with
  | nil => exact absurd rfl hne
  | cons xs rest =>
    have hxs := h xs (by simp)
    rw [shared, if_pos]
    · exact hxs
    · intro zs hzs
      rw [hxs, h zs (by simp [hzs])]

/-- Without collisions every episode of the pattern has the payload kept for its key. -/
theorem CandidateOf.payload_eq {obs : List Observation} {payload : PartitionPayload}
    {first : Observation} {context : PatternSemanticContext} {c : ExperiencePatternCandidate}
    (h : CandidateOf F stableKey obs payload first context c)
    (hkeys : KeysDistinct stableKey obs) {o : Observation}
    (ho : o ∈ partitionOf stableKey obs c.partitionKey) :
    partitionPayload o.signature = some payload := by
  obtain ⟨last, hlast, hpayload⟩ := Option.bind_eq_some_iff.1 h.last
  have hmem := List.mem_of_getLast? hlast
  obtain ⟨hlastObs, q, hq, hqkey⟩ := mem_partitionOf.1 hmem
  obtain ⟨hoObs, p, hp, hpkey⟩ := mem_partitionOf.1 ho
  rw [hpayload] at hq
  rw [hp, hkeys o hoObs last hlastObs p hp payload hpayload (by
    rw [hpkey, ← hqkey, Option.some_inj.1 hq])]

theorem CandidateOf.scope_eq {obs : List Observation} {payload : PartitionPayload}
    {first : Observation} {context : PatternSemanticContext} {c : ExperiencePatternCandidate}
    (h : CandidateOf F stableKey obs payload first context c)
    (hkeys : KeysDistinct stableKey obs) : c.commonScopeConditions = payload.scopeConditions := by
  rw [h.commonScope]
  apply shared_const
  · intro hnil
    have hhead := h.head
    rw [List.map_eq_nil_iff.1 hnil] at hhead
    cases hhead
  · intro xs hxs
    obtain ⟨o, ho, rfl⟩ := List.mem_map.1 hxs
    exact (partitionPayload_some (h.payload_eq hkeys ho)).2.2.1

/-- An owner objective is the objective its goal is resolved to. -/
theorem ownerObjective_resolved {signatures : List ExperienceContextSignature}
    {sig : ExperienceContextSignature} (hmem : sig ∈ signatures) {key : String}
    (hid : (resolvedIdentity signatures sig).1 = some (.objective key))
    (howner : (ownerObjective sig).isSome) : ownerObjective sig = some key := by
  obtain ⟨own, hown⟩ := Option.isSome_iff_exists.1 howner
  have hidentity : goalSignatureIdentity sig.goalSemanticSignature =
      (some (.objective own), false) := by
    cases hg : sig.goalSemanticSignature with
    | none => simp [ownerObjective, hg] at hown
    | some g =>
      have hkey : nonEmpty g.objectiveKey = some own := by simpa [ownerObjective, hg] using hown
      simp [goalSignatureIdentity, hkey]
  rw [hown]
  simp only [resolvedIdentity, hidentity] at hid
  cases hgoal : sig.exactGoalId with
  | none =>
    rw [hgoal] at hid
    simpa using hid
  | some goal =>
    have hin : GoalIdentity.objective own ∈ objectivesByGoal signatures goal := by
      rw [objectivesByGoal, List.mem_dedup, List.mem_filterMap]
      exact ⟨sig, List.mem_filter.2 ⟨hmem, by simpa using hgoal⟩, by rw [hown]; rfl⟩
    rw [hgoal] at hid
    simp only at hid
    split at hid
    · cases hid
    rename_i hmany
    have hlen : (objectivesByGoal signatures goal).length = 1 := by
      have hpos := List.length_pos_of_mem hin
      have : ¬1 < (objectivesByGoal signatures goal).length := fun hgt => hmany (Or.inl hgt)
      omega
    rw [if_pos hlen] at hid
    obtain ⟨x, hx⟩ := List.length_eq_one_iff.1 hlen
    rw [hx] at hid hin
    simp only [List.head?_cons, Option.some_inj] at hid
    rw [List.mem_singleton, hid] at hin
    simpa using hin

/-! ## The support of a qualified pattern -/

/-- What a candidate asks of an episode of its pattern that supports it strongly. -/
structure StrongSupport (F : CaseFolding) (stableKey : PartitionPayload → String)
    (episodes : List ExperienceEpisodeInput) (c : ExperiencePatternCandidate) (objective : String)
    (e : ExperienceEpisodeInput) : Prop where
  mem : observationOf F episodes e ∈
    partitionOf stableKey (observations F episodes) c.partitionKey
  strong : (eligibility (activeScopeConditions
    (partitionOf stableKey (observations F episodes) c.partitionKey))
      (observationOf F episodes e)).tier = .strong
  favourable : baseDirection e.signal = .support
  executed : e.signal.executionFidelity = .executedAsRecommended ∨
    e.signal.executionFidelity = .executionUnknown ∧ businessImpact e.signal = true
  intervention : (deriveContextSignature F e).recommendationClass = some c.recommendationClass
  subjectTypes : (deriveContextSignature F e).semanticSubjectTypes = c.subjectTypes
  objective : ownerObjective (deriveContextSignature F e) = some objective
  scope : (deriveContextSignature F e).scopeConditions = c.commonScopeConditions

/-- An episode of the pattern that is strong evidence against it. -/
structure StrongContradiction (F : CaseFolding) (stableKey : PartitionPayload → String)
    (episodes : List ExperienceEpisodeInput) (c : ExperiencePatternCandidate)
    (o : Observation) : Prop where
  mem : o ∈ partitionOf stableKey (observations F episodes) c.partitionKey
  strong : (eligibility (activeScopeConditions
    (partitionOf stableKey (observations F episodes) c.partitionKey)) o).tier = .strong
  unfavourable : baseDirection o.signal = .contradiction

/-- The goal identity of a candidate with owner objectives only is the objective of each of its
episodes. -/
theorem CandidateOf.objective_eq {episodes : List ExperienceEpisodeInput}
    {payload : PartitionPayload} {first : Observation} {context : PatternSemanticContext}
    {c : ExperiencePatternCandidate}
    (h : CandidateOf F stableKey (observations F episodes) payload first context c)
    (hkeys : KeysDistinct stableKey (observations F episodes)) {objective : String}
    (hobjective : context.objectiveKey = some objective)
    (howner : ∀ b ∈ context.goalSemanticBases, b = .ownerExplicitObjective)
    {e : ExperienceEpisodeInput} (he : e ∈ episodes)
    (hmem : observationOf F episodes e ∈
      partitionOf stableKey (observations F episodes) c.partitionKey) :
    ownerObjective (deriveContextSignature F e) = some objective := by
  have hidentity := (partitionPayload_some (h.payload_eq hkeys hmem)).1
  have hfirst := (partitionPayload_some (h.payload_eq hkeys (List.mem_of_head? h.head))).1
  have hgoal : payload.goalId = .objective objective := by
    rw [h.contextOf.objective, hfirst] at hobjective
    cases hp : payload.goalId with
    | objective key =>
      rw [hp] at hobjective
      simpa [objectiveKeyOf] using hobjective
    | kpis ks =>
      rw [hp] at hobjective
      cases hobjective
    | exactInstance g =>
      rw [hp] at hobjective
      cases hobjective
  rw [hgoal] at hidentity
  have hresolved : (resolvedIdentity (derivedSignatures F episodes)
      (deriveContextSignature F e)).1 = some (.objective objective) := hidentity
  have hbasis : (observationOf F episodes e).signature.goalSemanticBasis =
      some (if (ownerObjective (deriveContextSignature F e)).isSome then .ownerExplicitObjective
        else .inheritedExplicitObjective) := by
    show goalBasis (deriveContextSignature F e) (resolvedIdentity (derivedSignatures F episodes)
      (deriveContextSignature F e)).1 = _
    rw [hresolved]
    rfl
  have hsome : (ownerObjective (deriveContextSignature F e)).isSome := by
    by_contra hnone
    rw [if_neg hnone] at hbasis
    have hin : GoalSemanticBasis.inheritedExplicitObjective ∈ context.goalSemanticBases := by
      rw [h.contextOf.goalBases]
      simp only [canonicalGoalBases, List.mem_filter, decide_eq_true_eq, List.mem_filterMap]
      exact ⟨by simp, _, List.mem_map_of_mem hmem, hbasis⟩
    exact absurd (howner _ hin) (by simp)
  refine ownerObjective_resolved ?_ hresolved hsome
  exact List.mem_map_of_mem ((List.mem_insertionSort _).2 he)

/-- A strong supporting episode of a candidate has what the candidate says of its pattern. -/
theorem CandidateOf.strongSupport {episodes : List ExperienceEpisodeInput}
    {payload : PartitionPayload} {first : Observation} {context : PatternSemanticContext}
    {c : ExperiencePatternCandidate}
    (h : CandidateOf F stableKey (observations F episodes) payload first context c)
    (hkeys : KeysDistinct stableKey (observations F episodes)) {objective : String}
    (hobjective : context.objectiveKey = some objective)
    (howner : ∀ b ∈ context.goalSemanticBases, b = .ownerExplicitObjective)
    {e : ExperienceEpisodeInput} (he : e ∈ episodes)
    (hmem : observationOf F episodes e ∈
      partitionOf stableKey (observations F episodes) c.partitionKey)
    (htier : (eligibility (activeScopeConditions
      (partitionOf stableKey (observations F episodes) c.partitionKey))
        (observationOf F episodes e)).tier = .strong)
    (hdirection : (eligibility (activeScopeConditions
      (partitionOf stableKey (observations F episodes) c.partitionKey))
        (observationOf F episodes e)).direction = .support) :
    StrongSupport F stableKey episodes c objective e := by
  have hstrong := eligibility_strong htier
  have hpayload := partitionPayload_some (h.payload_eq hkeys hmem)
  constructor
  · exact hmem
  · exact htier
  · exact hstrong.2.symm.trans hdirection
  · exact hstrong.1
  · rw [h.recommendationClass]
    exact hpayload.2.1
  · rw [h.subjectTypes]
    exact hpayload.2.2.2
  · exact h.objective_eq hkeys hobjective howner he hmem
  · rw [h.scope_eq hkeys]
    exact hpayload.2.2.1

section Units
variable {obs part : List Observation}

/-- A strong independent supporting unit is one isolated episode. -/
theorem PartOf.support_unit (h : PartOf obs part) {u : EvidenceUnit}
    (hu : u ∈ strongIndependent (supportUnits
      (partitionUnits part (comparisons (obs.map (·.signature)))))) :
    ∃ o ∈ part, Isolated part o ∧ u = soloUnit part o ∧
      (eligibility (activeScopeConditions part) o).tier = .strong ∧
      (eligibility (activeScopeConditions part) o).direction = .support := by
  simp only [strongIndependent, supportUnits, List.mem_filter, decide_eq_true_eq] at hu
  obtain ⟨⟨hunit, hdirection⟩, htier, hindependent⟩ := hu
  obtain ⟨o, ho, hiso, rfl⟩ := h.unit_independent hunit hindependent
  exact ⟨o, ho, hiso, rfl, htier, hdirection⟩

/-- An isolated strong contradiction is a strong independent unit. -/
theorem PartOf.contradiction_unit (h : PartOf obs part) {o : Observation} (ho : o ∈ part)
    (hiso : Isolated part o) (htier : (eligibility (activeScopeConditions part) o).tier = .strong)
    (hdirection : (eligibility (activeScopeConditions part) o).direction = .contradiction) :
    soloUnit part o ∈ strongIndependent (contradictionUnits
      (partitionUnits part (comparisons (obs.map (·.signature))))) := by
  have hunit := h.soloUnit_mem ho hiso (by rw [htier]; simp)
  simp only [strongIndependent, contradictionUnits, List.mem_filter, decide_eq_true_eq]
  exact ⟨⟨hunit, hdirection⟩, htier, rfl⟩

/-- There are as many isolated strong supporting episodes as strong independent supporting units. -/
theorem exists_support {episodes : List ExperienceEpisodeInput}
    (h : PartOf (observations F episodes) part) : ∃ support : List ExperienceEpisodeInput,
    support.Sublist episodes ∧
    (strongIndependent (supportUnits (partitionUnits part
      (comparisons ((observations F episodes).map (·.signature)))))).length ≤ support.length ∧
    ∀ e ∈ support, observationOf F episodes e ∈ part ∧ Isolated part (observationOf F episodes e) ∧
      (eligibility (activeScopeConditions part) (observationOf F episodes e)).tier = .strong ∧
      (eligibility (activeScopeConditions part) (observationOf F episodes e)).direction =
        .support := by
  classical
  set units := strongIndependent (supportUnits (partitionUnits part
    (comparisons ((observations F episodes).map (·.signature)))))
  refine ⟨episodes.filter fun e => soloUnit part (observationOf F episodes e) ∈ units,
    List.filter_sublist, ?_, ?_⟩
  · have hsub : units ⊆ (episodes.filter fun e => soloUnit part (observationOf F episodes e) ∈
        units).map fun e => soloUnit part (observationOf F episodes e) := by
      intro u hu
      obtain ⟨o, ho, -, rfl, -, -⟩ := h.support_unit hu
      obtain ⟨e, he, rfl⟩ := mem_observations.1 (h.mem ho)
      exact List.mem_map.2 ⟨e, List.mem_filter.2 ⟨he, by simpa using hu⟩, rfl⟩
    have hnodup : units.Nodup := (h.units_nodup.filter _).filter _
    have hle := (List.subperm_of_subset hnodup hsub).length_le
    rwa [List.length_map] at hle
  · intro e he
    obtain ⟨hmem, hin⟩ := List.mem_filter.1 he
    obtain ⟨o, ho, hiso, heq, htier, hdirection⟩ := h.support_unit (by simpa using hin)
    -- the unit names its episode
    have hid : (observationOf F episodes e).id = o.id := by
      have hids := congrArg EvidenceUnit.episodeIds heq
      simpa [soloUnit] using hids
    obtain rfl := h.ids_inj (mem_observations.2 ⟨e, hmem, rfl⟩) (h.mem ho) hid
    exact ⟨ho, hiso, htier, hdirection⟩

end Units

/-- A qualified pattern has three or more strong supporting episodes of one intervention,
subject, objective and scope that are pairwise unrelated, and each strong contradiction of it
depends, or may depend, on another episode of the pattern. -/
theorem qualified_rests_on_independent_support {episodes : List ExperienceEpisodeInput}
    {r : ExperienceIntelligenceResult} (hr : evaluateExperienceSet F stableKey episodes = .ok r)
    (hkeys : KeysDistinct stableKey (observations F episodes))
    {c : ExperiencePatternCandidate} (hc : c ∈ r.patternCandidates)
    {q : KnowledgeQualificationResult} (hq : qualifyPatternKnowledge c = .ok q)
    (hs : q.status = .qualified) :
    (∃ objective, ∃ support : List ExperienceEpisodeInput,
      3 ≤ support.length ∧
      (∀ e ∈ support, e ∈ episodes ∧ StrongSupport F stableKey episodes c objective e) ∧
      support.Pairwise fun a b =>
        Unrelated (deriveContextSignature F a) (deriveContextSignature F b)) ∧
    ∀ o, StrongContradiction F stableKey episodes c o →
      ¬Isolated (partitionOf stableKey (observations F episodes) c.partitionKey) o := by
  have hnodup := (evaluate_ok hr).1
  obtain ⟨payload, first, context, hspec⟩ := candidate_spec hr hc
  have hpart : PartOf (observations F episodes)
      (partitionOf stableKey (observations F episodes) c.partitionKey) :=
    partOf_partition hnodup _
  obtain ⟨hgoal, hstrength⟩ := qualified_gates hq hs
  obtain ⟨context', objective, hcontext, hobjective, howner⟩ := goalGate_pass hgoal
  rw [hspec.semanticContext, Option.some_inj] at hcontext
  subst hcontext
  obtain ⟨s, hs1, hs2, -, -⟩ := assessment_strength hspec.assessed
  obtain ⟨hthree, hnone⟩ := recurrenceStrength_supported hs1 (hs2 ▸ hstrength)
  constructor
  · obtain ⟨support, hsub, hlength, hsupport⟩ := exists_support hpart
    refine ⟨objective, support, hthree.trans hlength, ?_, ?_⟩
    · intro e he
      obtain ⟨hmem, -, htier, hdirection⟩ := hsupport e he
      have hin : e ∈ episodes := hsub.subset he
      exact ⟨hin, hspec.strongSupport hkeys hobjective howner hin hmem htier hdirection⟩
    · have hids : support.Pairwise fun a b => a.episodeId ≠ b.episodeId :=
        (List.pairwise_map.1 hnodup).sublist hsub
      refine hids.imp_of_mem ?_
      intro a b ha hb hne
      obtain ⟨hamem, haiso, -⟩ := hsupport a ha
      obtain ⟨hbmem, hbiso, -⟩ := hsupport b hb
      have h := unrelated_of_isolated hamem hbmem haiso hbiso hne
      exact ⟨h.signal, h.decision, h.lineage, h.evidence, h.subject⟩
  · intro o hcontra hiso
    have hdirection := (eligibility_strong hcontra.strong).2
    have hin := hpart.contradiction_unit hcontra.mem hiso hcontra.strong
      (hdirection.trans hcontra.unfavourable)
    rw [hnone] at hin
    cases hin

/-! ## A sample of episodes -/

def sampleSignal (n : String) (status : DecisionEffectivenessStatus) : DecisionLearningSignal where
  signalId := "signal-" ++ n
  decisionId := "decision-" ++ n
  subjectRefs := [⟨.account, "account-" ++ n⟩]
  goalId := some "retention"
  subjectSemanticSignatures := [.account]
  goalSemanticSignature := some ⟨some "retain", []⟩
  interventionKey := some "call"
  evidenceLineages := [{
    artifactEvidenceId := "artifact-" ++ n
    rootEvidenceIds := ["root-" ++ n]
    resolution := .known }]
  executionFidelity := .executedAsRecommended
  effectiveness := status
  attributionStrength := .supportedContribution
  scopeConditions := ["region-eu"]
  supportingEvidenceIds := ["evidence-" ++ n]
  signalStrength := .supported
  evaluatedAt := ⟨0, some 0⟩

def sampleEpisode (n : String) (signal : DecisionLearningSignal) : ExperienceEpisodeInput where
  episodeId := "episode-" ++ n
  signal := signal
  observationTimeProvenance := .sourceVerified

/-- A key that tells the payloads of the samples apart. -/
def sampleKey (p : PartitionPayload) : String :=
  p.recommendationClass ++ String.join p.subjectTypes ++ String.join p.scopeConditions

def sampleSupport : List ExperienceEpisodeInput :=
  [sampleEpisode "a" (sampleSignal "a" .effective),
    sampleEpisode "b" (sampleSignal "b" .highlyEffective),
    sampleEpisode "c" (sampleSignal "c" .partiallyEffective)]

/-- The strength and the qualification status of each pattern of an evaluation. -/
def patternStatuses (F : CaseFolding) (stableKey : PartitionPayload → String)
    (episodes : List ExperienceEpisodeInput) :
    List (RecurrenceStrength × Option KnowledgeQualificationStatus) :=
  match evaluateExperienceSet F stableKey episodes with
  | .ok r => r.patternCandidates.map fun c =>
      (c.recurrence.strength, (qualifyPatternKnowledge c).toOption.map (·.status))
  | .error _ => []

theorem mem_patternStatuses {episodes : List ExperienceEpisodeInput} {s : RecurrenceStrength}
    {status : KnowledgeQualificationStatus}
    (h : (s, some status) ∈ patternStatuses F stableKey episodes) :
    ∃ r c q, evaluateExperienceSet F stableKey episodes = .ok r ∧ c ∈ r.patternCandidates ∧
      qualifyPatternKnowledge c = .ok q ∧ c.recurrence.strength = s ∧ q.status = status := by
  simp only [patternStatuses] at h
  split at h
  · rename_i r hr
    obtain ⟨c, hc, heq⟩ := List.mem_map.1 h
    rw [Prod.mk.injEq, Option.map_eq_some_iff] at heq
    obtain ⟨hs, q, hq, hstatus⟩ := heq
    cases hok : qualifyPatternKnowledge c with
    | error e =>
      rw [hok] at hq
      cases hq
    | ok found =>
      rw [hok] at hq
      cases hq
      exact ⟨r, c, q, hr, hc, hok, hs, hstatus⟩
  · cases h

theorem sample_rests_on_independent_support :
    ∃ r c, evaluateExperienceSet plainFolding sampleKey sampleSupport = .ok r ∧
      c ∈ r.patternCandidates ∧ ∃ objective, ∃ support : List ExperienceEpisodeInput,
        3 ≤ support.length ∧
        (∀ e ∈ support, e ∈ sampleSupport ∧
          StrongSupport plainFolding sampleKey sampleSupport c objective e) ∧
        support.Pairwise fun a b => Unrelated (deriveContextSignature plainFolding a)
          (deriveContextSignature plainFolding b) := by
  have hstatus : (RecurrenceStrength.supported, some KnowledgeQualificationStatus.qualified) ∈
      patternStatuses plainFolding sampleKey sampleSupport := by decide +kernel
  obtain ⟨r, c, q, hr, hc, hq, -, hs⟩ := mem_patternStatuses hstatus
  have hkeys : KeysDistinct sampleKey (observations plainFolding sampleSupport) := by
    decide +kernel
  exact ⟨r, c, hr, hc, (qualified_rests_on_independent_support hr hkeys hc hq hs).1⟩

end Ajenda.Experience
