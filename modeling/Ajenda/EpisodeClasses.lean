import Ajenda.EvidenceCounts

/-!
# The episode classes of a pattern

A unit takes the whole of a dependence component into its class, exclusion is decided for each
episode. The five classes of a pattern are a partition of its episodes exactly when no excluded
episode is tied to one that counts.
-/
namespace Ajenda.Experience

variable {F : CaseFolding} {stableKey : PartitionPayload → String} {obs part : List Observation}

section Classes

/-- The episodes of a candidate by class. -/
def ExperiencePatternCandidate.episodeClasses (c : ExperiencePatternCandidate) :
    List (List String) :=
  [c.supportingEpisodeIds, c.contradictingEpisodeIds, c.neutralEpisodeIds, c.ambiguousEpisodeIds,
    c.excludedEpisodeIds]

/-- The episode was excluded from the evidence of its partition. -/
def Excluded (part : List Observation) (o : Observation) : Prop :=
  (eligibility (activeScopeConditions part) o).excluded = true

/-- The classes of a candidate partition the episodes, and what was excluded is no evidence. -/
structure PartitionsEpisodes (part : List Observation) (c : ExperiencePatternCandidate) : Prop where
  disjoint : c.episodeClasses.Pairwise List.Disjoint
  cover : ∀ id, (∃ ids ∈ c.episodeClasses, id ∈ ids) ↔ ∃ o ∈ part, o.id = id
  excluded : ∀ o ∈ part, Excluded part o →
    o.id ∉ c.supportingEpisodeIds ∧ o.id ∉ c.contradictingEpisodeIds

/-- No chain of dependent pairs ties an excluded episode to one that counts. -/
def Untied (obs part : List Observation) : Prop :=
  ∀ a ∈ part, Excluded part a → ∀ b ∈ part, Counts part b → a.id ∉ componentOf obs part b

theorem eligibility_excluded (active : List String) (o : Observation) :
    (eligibility active o).excluded = true ↔ (eligibility active o).tier = .ineligible := by
  unfold eligibility
  simp only [excludedEligibility]
  split_ifs <;> simp

theorem excluded_iff {o : Observation} : Excluded part o ↔ ¬Counts part o := by
  rw [Excluded, Counts, eligibility_excluded, not_not]

theorem mem_episodesOf {d : EvidenceUnitDirection} {units : List EvidenceUnit} {id : String} :
    id ∈ episodesOf d units ↔ ∃ u ∈ units, u.direction = d ∧ id ∈ u.episodeIds := by
  simp only [episodesOf, mem_sortedSet, List.mem_flatMap, List.mem_filter, decide_eq_true_eq,
    and_assoc]

theorem mem_partitionExcluded {id : String} :
    id ∈ partitionExcluded part ↔ ∃ o ∈ part, Excluded part o ∧ o.id = id := by
  simp only [partitionExcluded, mem_sortedSet, List.mem_map, List.mem_filter, and_assoc]
  rfl

/-- The classes as the units of a partition give them. -/
structure ClassesOf (part : List Observation) (units : List EvidenceUnit)
    (c : ExperiencePatternCandidate) : Prop where
  supporting : c.supportingEpisodeIds = episodesOf .support units
  contradicting : c.contradictingEpisodeIds = episodesOf .contradiction units
  neutral : c.neutralEpisodeIds = episodesOf .neutral units
  ambiguous : c.ambiguousEpisodeIds = episodesOf .ambiguous units
  excluded : c.excludedEpisodeIds = partitionExcluded part

theorem patternCandidate_classes {key : String} {payload : PartitionPayload} {first : Observation}
    {cs : List ExperienceComparison} {assessment : RecurrenceAssessment}
    {c : ExperiencePatternCandidate}
    (h : patternCandidate F key payload first part cs assessment = .ok c) :
    ClassesOf part (partitionUnits part cs) c := by
  simp only [patternCandidate, bind, Except.bind] at h
  split at h
  · cases h
  split at h
  · cases h
  split at h
  · cases h
  rw [validateCandidate_ok h]
  exact ⟨rfl, rfl, rfl, rfl, rfl⟩

theorem candidate_classes {episodes : List ExperienceEpisodeInput}
    {r : ExperienceIntelligenceResult} (h : evaluateExperienceSet F stableKey episodes = .ok r)
    {c : ExperiencePatternCandidate} (hc : c ∈ r.patternCandidates) :
    ClassesOf (partitionOf stableKey (observations F episodes) c.partitionKey)
      (partitionUnits (partitionOf stableKey (observations F episodes) c.partitionKey)
        (comparisons ((observations F episodes).map (·.signature)))) c := by
  obtain ⟨key, -, hkey⟩ := (candidatesOf_mem (evaluate_ok h).2).1 hc
  obtain ⟨rfl, -⟩ := partitionCandidate_some hkey
  simp only [partitionCandidate] at hkey
  split at hkey
  next assessment first payload _ _ _ =>
    cases hp : patternCandidate F c.partitionKey payload first
        (partitionOf stableKey (observations F episodes) c.partitionKey)
        (comparisons ((observations F episodes).map (·.signature))) assessment with
    | error e =>
      rw [hp] at hkey
      cases hkey
    | ok d =>
      rw [hp] at hkey
      obtain rfl : d = c := by simpa [Except.map] using hkey
      exact patternCandidate_classes hp
  next => cases hkey

end Classes

section Partition
variable {c : ExperiencePatternCandidate}

/-- The units of a partition of an evaluation. -/
abbrev unitsOf (obs part : List Observation) : List EvidenceUnit :=
  partitionUnits part (comparisons (obs.map (·.signature)))

theorem PartOf.unit_ids (h : PartOf obs part) {u : EvidenceUnit} (hu : u ∈ unitsOf obs part)
    {id : String} (hid : id ∈ u.episodeIds) : ∃ o ∈ part, o.id = id := by
  obtain ⟨g, hg, hunit⟩ := mem_units.1 hu
  obtain ⟨x, -, rfl⟩ := h.mem_components.1 hg
  rw [evidenceUnit_ids hunit] at hid
  exact List.mem_map.1 (mem_sortedSet.1 (DisjointSets.mem_classOf.1 hid).1)

/-- A unit holds an episode that counts. -/
theorem PartOf.unit_counts (h : PartOf obs part) {u : EvidenceUnit} (hu : u ∈ unitsOf obs part) :
    ∃ o ∈ part, Counts part o ∧ u.episodeIds = componentOf obs part o := by
  obtain ⟨g, -, hunit⟩ := mem_units.1 hu
  have hne : usableDirections part g ≠ [] := by
    intro hnil
    rw [usableDirections, List.map_eq_nil_iff] at hnil
    simp only [evidenceUnit] at hunit
    rw [if_pos hnil] at hunit
    cases hunit
  obtain ⟨d, hd⟩ := List.exists_mem_of_ne_nil _ hne
  obtain ⟨o, ho, hid, hcounts, -⟩ := h.mem_usableDirections.1 hd
  rw [← evidenceUnit_ids hunit] at hid
  exact ⟨o, ho, hcounts, (h.unit_component hu hid).1⟩

/-- An episode in two classes of units is in classes of one direction. -/
theorem PartOf.episodesOf_disjoint (h : PartOf obs part) {d d' : EvidenceUnitDirection}
    (hne : d ≠ d') :
    List.Disjoint (episodesOf d (unitsOf obs part)) (episodesOf d' (unitsOf obs part)) := by
  intro id hid hid'
  obtain ⟨u, hu, rfl, hidu⟩ := mem_episodesOf.1 hid
  obtain ⟨v, hv, rfl, hidv⟩ := mem_episodesOf.1 hid'
  obtain ⟨o, -, rfl⟩ := h.unit_ids hu hidu
  rw [h.units_disjoint hu hv hidu hidv] at hne
  exact hne rfl

theorem mem_classes {units : List EvidenceUnit} (h : ClassesOf part units c) {id : String} :
    (∃ ids ∈ c.episodeClasses, id ∈ ids) ↔
      (∃ u ∈ units, id ∈ u.episodeIds) ∨ id ∈ partitionExcluded part := by
  simp only [ExperiencePatternCandidate.episodeClasses, h.supporting, h.contradicting, h.neutral,
    h.ambiguous, h.excluded, List.mem_cons, List.not_mem_nil, or_false, exists_eq_or_imp,
    exists_eq_left, mem_episodesOf]
  constructor
  · rintro (⟨u, hu, -, hid⟩ | ⟨u, hu, -, hid⟩ | ⟨u, hu, -, hid⟩ | ⟨u, hu, -, hid⟩ | hid)
    · exact .inl ⟨u, hu, hid⟩
    · exact .inl ⟨u, hu, hid⟩
    · exact .inl ⟨u, hu, hid⟩
    · exact .inl ⟨u, hu, hid⟩
    · exact .inr hid
  · rintro (⟨u, hu, hid⟩ | hid)
    · cases hd : u.direction with
      | support => exact .inl ⟨u, hu, hd, hid⟩
      | contradiction => exact .inr (.inl ⟨u, hu, hd, hid⟩)
      | neutral => exact .inr (.inr (.inl ⟨u, hu, hd, hid⟩))
      | ambiguous => exact .inr (.inr (.inr (.inl ⟨u, hu, hd, hid⟩)))
    · exact .inr (.inr (.inr (.inr hid)))

/-- Every episode of the partition is in some class. -/
theorem PartOf.classes_cover (h : PartOf obs part) (hc : ClassesOf part (unitsOf obs part) c)
    (id : String) :
    (∃ ids ∈ c.episodeClasses, id ∈ ids) ↔ ∃ o ∈ part, o.id = id := by
  rw [mem_classes hc]
  constructor
  · rintro (⟨u, hu, hid⟩ | hid)
    · exact h.unit_ids hu hid
    · obtain ⟨o, ho, -, rfl⟩ := mem_partitionExcluded.1 hid
      exact ⟨o, ho, rfl⟩
  · rintro ⟨o, ho, rfl⟩
    by_cases hcounts : Counts part o
    · obtain ⟨u, hu, hids, -⟩ := h.unit_of_counts ho hcounts
      exact .inl ⟨u, hu, hids ▸ self_mem_componentOf obs ho⟩
    · exact .inr (mem_partitionExcluded.2 ⟨o, ho, excluded_iff.2 hcounts, rfl⟩)

/-- An excluded episode is in no unit when it is tied to none that counts. -/
theorem PartOf.not_mem_unit (h : PartOf obs part) (huntied : Untied obs part) {u : EvidenceUnit}
    (hu : u ∈ unitsOf obs part) {id : String} (hid : id ∈ partitionExcluded part) :
    id ∉ u.episodeIds := by
  obtain ⟨a, ha, hexcluded, rfl⟩ := mem_partitionExcluded.1 hid
  obtain ⟨b, hb, hcounts, hids⟩ := h.unit_counts hu
  rw [hids]
  exact huntied a ha hexcluded b hb hcounts

theorem PartOf.partitions_of_untied (h : PartOf obs part)
    (hc : ClassesOf part (unitsOf obs part) c) (huntied : Untied obs part) :
    PartitionsEpisodes part c := by
  have hexcluded : ∀ d, List.Disjoint (episodesOf d (unitsOf obs part)) (partitionExcluded part) := by
    intro d id hid hex
    obtain ⟨u, hu, -, hidu⟩ := mem_episodesOf.1 hid
    exact h.not_mem_unit huntied hu hex hidu
  refine ⟨?_, h.classes_cover hc, fun o ho hex => ?_⟩
  · simp only [ExperiencePatternCandidate.episodeClasses, hc.supporting, hc.contradicting,
      hc.neutral, hc.ambiguous, hc.excluded, List.pairwise_cons, List.mem_cons, List.not_mem_nil,
      or_false, forall_eq_or_imp, forall_eq, List.Pairwise.nil, hexcluded, IsEmpty.forall_iff,
      implies_true, and_true]
    refine ⟨⟨?_, ?_, ?_⟩, ⟨?_, ?_⟩, ?_⟩ <;>
      · apply h.episodesOf_disjoint
        simp
  · have hid : o.id ∈ partitionExcluded part := mem_partitionExcluded.2 ⟨o, ho, hex, rfl⟩
    rw [hc.supporting, hc.contradicting]
    exact ⟨fun hmem => hexcluded _ hmem hid, fun hmem => hexcluded _ hmem hid⟩

/-- Disjoint classes leave no excluded episode in the component of one that counts. -/
theorem PartOf.untied_of_disjoint (h : PartOf obs part)
    (hc : ClassesOf part (unitsOf obs part) c)
    (hdisjoint : c.episodeClasses.Pairwise List.Disjoint) : Untied obs part := by
  intro a ha hex b hb hcounts hmem
  obtain ⟨u, hu, hids, -⟩ := h.unit_of_counts hb hcounts
  have hunit : a.id ∈ episodesOf u.direction (unitsOf obs part) :=
    mem_episodesOf.2 ⟨u, hu, rfl, hids ▸ hmem⟩
  have hexcluded : a.id ∈ partitionExcluded part := mem_partitionExcluded.2 ⟨a, ha, hex, rfl⟩
  simp only [ExperiencePatternCandidate.episodeClasses, hc.supporting, hc.contradicting, hc.neutral,
    hc.ambiguous, hc.excluded, List.pairwise_cons, List.mem_cons, List.not_mem_nil, or_false,
    forall_eq_or_imp, forall_eq] at hdisjoint
  obtain ⟨⟨-, -, -, hsupport⟩, ⟨-, -, hcontradiction⟩, ⟨-, hneutral⟩, hambiguous, -⟩ := hdisjoint
  cases hd : u.direction with
  | support => exact hsupport (hd ▸ hunit) hexcluded
  | contradiction => exact hcontradiction (hd ▸ hunit) hexcluded
  | neutral => exact hneutral (hd ▸ hunit) hexcluded
  | ambiguous => exact hambiguous (hd ▸ hunit) hexcluded

/-- The classes of a pattern partition its episodes exactly when no excluded episode is tied to
one that counts. -/
theorem classes_partition_iff {episodes : List ExperienceEpisodeInput}
    {r : ExperienceIntelligenceResult} (hr : evaluateExperienceSet F stableKey episodes = .ok r)
    (hc : c ∈ r.patternCandidates) :
    PartitionsEpisodes (partitionOf stableKey (observations F episodes) c.partitionKey) c ↔
      Untied (observations F episodes)
        (partitionOf stableKey (observations F episodes) c.partitionKey) := by
  have hpart : PartOf (observations F episodes)
      (partitionOf stableKey (observations F episodes) c.partitionKey) :=
    partOf_partition (evaluate_ok hr).1 _
  have hclasses := candidate_classes hr hc
  exact ⟨fun h => hpart.untied_of_disjoint hclasses h.disjoint,
    hpart.partitions_of_untied hclasses⟩

end Partition

section Sample

/-- A decision seen twice: it was not executed, and it was executed without success. -/
def tiedEpisodes : List ExperienceEpisodeInput :=
  [sampleEpisode "a" (sampleSignal "a" .effective),
    sampleEpisode "b" (sampleSignal "b" .effective),
    sampleEpisode "c" (sampleSignal "c" .ineffective),
    sampleEpisode "d" { sampleSignal "d" .notExecuted with
      decisionId := "decision-c", executionFidelity := .notExecuted }]

/-- What an evaluation cites against its patterns although it was excluded. -/
def excludedContradictions (F : CaseFolding) (stableKey : PartitionPayload → String)
    (episodes : List ExperienceEpisodeInput) : List String :=
  match evaluateExperienceSet F stableKey episodes with
  | .ok r => r.patternCandidates.flatMap fun c =>
      c.contradictingEpisodeIds.filter (· ∈ c.excludedEpisodeIds)
  | .error _ => []

theorem not_partition_of_excludedContradictions {episodes : List ExperienceEpisodeInput}
    (h : excludedContradictions F stableKey episodes ≠ []) :
    ∃ r c, evaluateExperienceSet F stableKey episodes = .ok r ∧ c ∈ r.patternCandidates ∧
      ¬PartitionsEpisodes (partitionOf stableKey (observations F episodes) c.partitionKey) c := by
  obtain ⟨id, hid⟩ := List.exists_mem_of_ne_nil _ h
  simp only [excludedContradictions] at hid
  split at hid
  next r hr =>
    obtain ⟨c, hc, hmem⟩ := List.mem_flatMap.1 hid
    obtain ⟨hcontra, hexcluded⟩ := List.mem_filter.1 hmem
    refine ⟨r, c, hr, hc, fun hpartition => ?_⟩
    rw [decide_eq_true_eq, (candidate_classes hr hc).excluded] at hexcluded
    obtain ⟨o, ho, hex, rfl⟩ := mem_partitionExcluded.1 hexcluded
    exact (hpartition.excluded o ho hex).2 hcontra
  next => cases hid

/-- The episode that was not executed contradicts the pattern. -/
theorem tied_episode_contradicts :
    ∃ r c, evaluateExperienceSet plainFolding sampleKey tiedEpisodes = .ok r ∧
      c ∈ r.patternCandidates ∧ ¬PartitionsEpisodes
        (partitionOf sampleKey (observations plainFolding tiedEpisodes) c.partitionKey) c :=
  not_partition_of_excludedContradictions (by decide +kernel)

theorem sample_classes_iff :
    ∃ r c, evaluateExperienceSet plainFolding sampleKey sampleSupport = .ok r ∧
      c ∈ r.patternCandidates ∧
      (PartitionsEpisodes
          (partitionOf sampleKey (observations plainFolding sampleSupport) c.partitionKey) c ↔
        Untied (observations plainFolding sampleSupport)
          (partitionOf sampleKey (observations plainFolding sampleSupport) c.partitionKey)) := by
  have hstatus : (RecurrenceStrength.supported, some KnowledgeQualificationStatus.qualified) ∈
      patternStatuses plainFolding sampleKey sampleSupport := by decide +kernel
  obtain ⟨r, c, q, hr, hc, -, -, -⟩ := mem_patternStatuses hstatus
  exact ⟨r, c, hr, hc, classes_partition_iff hr hc⟩

end Sample

end Ajenda.Experience
