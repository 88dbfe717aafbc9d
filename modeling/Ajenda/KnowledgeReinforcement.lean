import Ajenda.KnowledgeFeedback
import Ajenda.KnowledgeLifecycle

/-!
# Whether knowledge strengthens itself

An episode that knowledge led to is judged against the episodes the knowledge rests on. Nothing
in the hand-overs ties it to them: a decision on knowledge alone has a known lineage that names
only its own row and rows younger than the lineages of the old episodes. It then counts as one
more independent support of the very pattern it was derived from.
-/
namespace Ajenda.Experience

section Judgement

/-- A signature that can be independent of another: its lineage is known and it cites evidence. -/
structure Traceable (a : ExperienceContextSignature) : Prop where
  known : a.lineageResolution = .known
  cites : a.supportingEvidenceIds ≠ []

theorem pairIndependence_iff {a b : ExperienceContextSignature} :
    (pairIndependence a b).1 = .independent ↔ Unrelated a b ∧ Traceable a ∧ Traceable b := by
  constructor
  · intro h
    refine ⟨pairIndependence_unrelated h, ?_⟩
    simp only [pairIndependence] at h
    split at h
    · cases h
    split at h
    · cases h
    split at h
    · cases h
    rename_i hunknown
    split at h
    · cases h
    rename_i hpartly
    split at h
    · cases h
    rename_i hcites
    rw [not_or] at hunknown hpartly hcites
    have hknown : ∀ r : EvidenceLineageResolution, r ≠ .unknown → r ≠ .partly → r = .known := by
      intro r hr hr'
      cases r with
      | known => rfl
      | partly => exact absurd rfl hr'
      | unknown => exact absurd rfl hr
    exact ⟨⟨hknown _ hunknown.1 hpartly.1, hcites.1⟩, ⟨hknown _ hunknown.2 hpartly.2, hcites.2⟩⟩
  · rintro ⟨h, ha, hb⟩
    have hlineage := overlap_false.2 h.lineage
    have hevidence := overlap_false.2 h.evidence
    have hsubject := overlap_false.2 h.subject
    simp [pairIndependence, h.signal, h.decision, hlineage, hevidence, hsubject, ha.known,
      hb.known, ha.cites, hb.cites]

theorem pairStatus_iff {a b : Observation} : pairStatus a b = .independent ↔
    Unrelated a.signature b.signature ∧ Traceable a.signature ∧ Traceable b.signature := by
  simp only [pairStatus, compareSignatures]
  by_cases hlt : b.signature.episodeId < a.signature.episodeId
  · rw [if_pos hlt, if_pos hlt, pairIndependence_iff]
    constructor
    · rintro ⟨h, hb, ha⟩
      exact ⟨h.symm, ha, hb⟩
    · rintro ⟨h, ha, hb⟩
      exact ⟨h.symm, hb, ha⟩
  · rw [if_neg hlt, if_neg hlt, pairIndependence_iff]

end Judgement

section Episode
variable {F : CaseFolding} {T : Tenant} {d : InformedDecision} {x : AssessedOutcome}
  {e : ExperienceEpisodeInput} {episodeRows : List (String × String)}

/-- The episode of the decision, with the lineages it collected. -/
theorem learningEpisode_ok (h : learningEpisode T d x = .ok e)
    (hrows : T.resolve d = .ok episodeRows) :
    ∃ rows lineages, Collected T d episodeRows rows lineages ∧
      e = {
        episodeId := x.episodeId
        signal := { x.assessed with
          evidenceLineages := lineages
          supportingEvidenceIds := citedEvidence d episodeRows x }
        observationTimeProvenance := x.observationTimeProvenance } := by
  simp only [learningEpisode, hrows, bind, Except.bind] at h
  split_ifs at h with hshape
  cases hread : (d.supporting episodeRows).mapM T.supportingRow with
  | error message =>
    rw [hread] at h
    cases h
  | ok rows =>
    rw [hread] at h
    simp only at h
    cases hrelevant : relevantLineages rows (d.materialized episodeRows)
        (d.supporting episodeRows) (d.resultLineage episodeRows) with
    | error message =>
      rw [hrelevant] at h
      cases h
    | ok lineages =>
      rw [hrelevant] at h
      cases h
      refine ⟨rows, lineages, ⟨hrows, ?_, ?_, hrelevant⟩, rfl⟩
      · intro f hf hdurable
        by_contra hne
        exact hshape (List.any_eq_true.2 ⟨f, hf, by simp [hdurable, hne]⟩)
      · intro row hrow
        obtain ⟨id, hid, hstored⟩ := (mapM_ok hread).1 row hrow
        refine ⟨id, hid, ?_⟩
        cases hfound : T.row id with
        | none => simp [Tenant.supportingRow, hfound] at hstored
        | some found => simpa [Tenant.supportingRow, hfound] using hstored

/-- Nothing ties the episode of the decision to an episode of the history: the decision relied
on knowledge alone, and the old episode shares no identifier with what came of it. -/
structure Unlinked (F : CaseFolding) (d : InformedDecision) (episodeRows : List (String × String))
    (x : AssessedOutcome) (s : ExperienceEpisodeInput) : Prop where
  only : OnlyKnowledge d episodeRows
  cites : canonicalIdentifiers (citedEvidence d episodeRows x) ≠ []
  traceable : Traceable (deriveContextSignature F s)
  signal : x.assessed.signalId ≠ s.signal.signalId
  decision : x.assessed.decisionId ≠ s.signal.decisionId
  rows : ∀ id ∈ d.recommendationRow :: episodeRows.map (·.2),
    "evidence:" ++ id ∉ (deriveContextSignature F s).lineageDependenceKeys
  evidence : ∀ id ∈ canonicalIdentifiers (citedEvidence d episodeRows x),
    id ∉ (deriveContextSignature F s).supportingEvidenceIds
  subject : ∀ ref ∈ x.assessed.subjectRefs.map (subjectRefKey F),
    ref ∉ (deriveContextSignature F s).exactSubjectRefs

theorem independent_iff_unlinked (h : learningEpisode T d x = .ok e)
    (hrows : T.resolve d = .ok episodeRows) (episodes : List ExperienceEpisodeInput)
    (s : ExperienceEpisodeInput) :
    pairStatus (observationOf F episodes e) (observationOf F episodes s) = .independent ↔
      Unlinked F d episodeRows x s := by
  obtain ⟨rows, lineages, hcollected, rfl⟩ := learningEpisode_ok h hrows
  rw [pairStatus_iff]
  constructor
  · rintro ⟨hunrelated, hnew, hold⟩
    have honly : OnlyKnowledge d episodeRows := by
      apply hcollected.known_iff.1
      simpa [observationOf, resolveSignature, deriveContextSignature] using hnew.known
    constructor
    · exact honly
    · simpa [observationOf, resolveSignature, deriveContextSignature] using hnew.cites
    · exact ⟨hold.known, hold.cites⟩
    · exact hunrelated.signal
    · exact hunrelated.decision
    · intro id hid
      refine hunrelated.lineage _ ?_
      simpa [observationOf, resolveSignature, deriveContextSignature] using
        List.mem_flatMap.1 ((hcollected.keys honly _).2 ⟨id, hid, rfl⟩)
    · intro id hid
      refine hunrelated.evidence id ?_
      simpa [observationOf, resolveSignature, deriveContextSignature] using hid
    · intro ref href
      exact hunrelated.subject ref (mem_sortedSet.2 href)
  · intro hu
    refine ⟨⟨hu.signal, hu.decision, ?_, ?_, ?_⟩, ⟨?_, ?_⟩, ⟨hu.traceable.known, hu.traceable.cites⟩⟩
    · intro key hkey
      have hmem : key ∈ lineages.flatMap (·.dependenceKeys) := by
        simpa [observationOf, resolveSignature, deriveContextSignature] using hkey
      obtain ⟨id, hid, rfl⟩ := (hcollected.keys hu.only key).1 hmem
      exact hu.rows id hid
    · intro id hid
      refine hu.evidence id ?_
      simpa [observationOf, resolveSignature, deriveContextSignature] using hid
    · intro ref href
      exact hu.subject ref (mem_sortedSet.1 href)
    · simpa [observationOf, resolveSignature, deriveContextSignature] using
        hcollected.known_iff.2 hu.only
    · simpa [observationOf, resolveSignature, deriveContextSignature] using hu.cites

end Episode

section Pattern
variable {F : CaseFolding} {stableKey : PartitionPayload → String}
  {episodes : List ExperienceEpisodeInput} {r : ExperienceIntelligenceResult}
  {c : ExperiencePatternCandidate}

/-- The `independent_support_count` of a pattern; a pattern without a candidate has none. -/
def supportCount (r : ExperienceIntelligenceResult) (key : String) : ℕ :=
  ((patternOf r key).map (·.recurrence.independentSupportCount)).getD 0

theorem candidate_count (hr : evaluateExperienceSet F stableKey episodes = .ok r)
    (hc : c ∈ r.patternCandidates) : c.recurrence.independentSupportCount =
      (strongIndependent (supportUnits (partitionUnits
        (partitionOf stableKey (observations F episodes) c.partitionKey)
        (comparisons ((observations F episodes).map (·.signature)))))).length := by
  obtain ⟨payload, first, context, hspec⟩ := candidate_spec hr hc
  obtain ⟨s, -, -, hcount, -⟩ := assessment_strength hspec.assessed
  exact hcount

theorem partitionCandidate_supporting {obs : List Observation} {key : String}
    (h : partitionCandidate F stableKey obs (comparisons (obs.map (·.signature))) key =
      .ok (some c)) :
    c.supportingEpisodeIds = episodesOf .support
      (partitionUnits (partitionOf stableKey obs key) (comparisons (obs.map (·.signature)))) := by
  simp only [partitionCandidate] at h
  split at h
  · rename_i assessment first payload hassess hfirst hlast
    cases hp : patternCandidate F key payload first (partitionOf stableKey obs key)
        (comparisons (obs.map (·.signature))) assessment with
    | error e =>
      rw [hp] at h
      cases h
    | ok d =>
      rw [hp] at h
      obtain rfl : d = c := by simpa [Except.map] using h
      simp only [patternCandidate, bind, Except.bind] at hp
      split at hp
      · cases hp
      split at hp
      · cases hp
      split at hp
      · cases hp
      rw [validateCandidate_ok hp]
  · cases h

/-- A qualified pattern rests on an episode of its own partition. -/
theorem qualified_support (hr : evaluateExperienceSet F stableKey episodes = .ok r)
    (hc : c ∈ r.patternCandidates) {q : KnowledgeQualificationResult}
    (hq : qualifyPatternKnowledge c = .ok q) (hactive : lifecycleStatus q.status = .active) :
    ∃ s ∈ episodes, s.episodeId ∈ c.supportingEpisodeIds ∧
      observationOf F episodes s ∈ partitionOf stableKey (observations F episodes) c.partitionKey := by
  have hqualified : q.status = .qualified := by
    cases hs : q.status <;> simp_all [lifecycleStatus]
  obtain ⟨key, -, hkey⟩ := (candidatesOf_mem (evaluate_ok hr).2).1 hc
  have hsupporting := partitionCandidate_supporting hkey
  obtain ⟨hckey, payload, first, context, hspec⟩ := partitionCandidate_some hkey
  obtain ⟨strength, hs, hstrength, -, -⟩ := assessment_strength hspec.assessed
  obtain ⟨hthree, -⟩ := recurrenceStrength_supported hs
    (hstrength ▸ (qualified_gates hq hqualified).2)
  have hpart : PartOf (observations F episodes)
      (partitionOf stableKey (observations F episodes) c.partitionKey) :=
    partOf_partition (evaluate_ok hr).1 _
  obtain ⟨u, hu⟩ := List.exists_mem_of_length_pos
    ((show 0 < 3 by omega).trans_le hthree)
  simp only [strongIndependent, supportUnits, List.mem_filter, decide_eq_true_eq] at hu
  obtain ⟨o, ho, -, rfl⟩ := hpart.unit_independent hu.1.1 hu.2.2
  obtain ⟨s, hs, rfl⟩ := mem_observations.1 (mem_partitionOf.1 ho).1
  refine ⟨s, hs, ?_, ho⟩
  rw [hsupporting, ← hckey, episodesOf, mem_sortedSet, List.mem_flatMap]
  exact ⟨_, List.mem_filter.2 ⟨hu.1.1, by simpa using hu.1.2⟩, List.mem_singleton.2 rfl⟩

/-- The episode is judged independent of no episode the pattern rests on. -/
def StaysDependent (F : CaseFolding) (episodes : List ExperienceEpisodeInput)
    (c : ExperiencePatternCandidate) (e : ExperienceEpisodeInput) : Prop :=
  ∀ s ∈ episodes, s.episodeId ∈ c.supportingEpisodeIds →
    pairStatus (observationOf F (e :: episodes) e) (observationOf F (e :: episodes) s) ≠
      .independent

instance (e : ExperienceEpisodeInput) : Decidable (StaysDependent F episodes c e) :=
  inferInstanceAs (Decidable (∀ s ∈ episodes, s.episodeId ∈ c.supportingEpisodeIds →
    pairStatus (observationOf F (e :: episodes) e) (observationOf F (e :: episodes) s) ≠
      .independent))

variable {e : ExperienceEpisodeInput}

/-- An episode that stays dependent and keeps the members of the pattern does not add support. -/
theorem supportCount_le (hr : evaluateExperienceSet F stableKey episodes = .ok r)
    (hc : c ∈ r.patternCandidates) {q : KnowledgeQualificationResult}
    (hq : qualifyPatternKnowledge c = .ok q) (hactive : lifecycleStatus q.status = .active)
    (hkeys : KeysDistinct stableKey (observations F episodes ++ observations F (e :: episodes)))
    (hmembers : KeepsMembers F stableKey episodes e c.partitionKey)
    (hdependent : StaysDependent F episodes c e) {r' : ExperienceIntelligenceResult}
    (hr' : evaluateExperienceSet F stableKey (e :: episodes) = .ok r') :
    supportCount r' c.partitionKey ≤ supportCount r c.partitionKey := by
  have hids := (evaluate_ok hr').1
  have hgrown := hmembers.grown hids hkeys
  obtain ⟨s, hs, hid, hobs⟩ := qualified_support hr hc hq hactive
  have hfresh : (observationOf F episodes s).id ≠ (observationOf F (e :: episodes) e).id := by
    intro heq
    exact (List.nodup_cons.1 hids).1 (List.mem_map.2 ⟨s, hs, heq⟩)
  have hle := hgrown.strongSupport_le fun _ hiso => by
    have hindependent := hiso _ (hgrown.mem_large hobs) hfresh
    have hkey := of_decide_eq_true (List.mem_filter.1 hobs).2
    rw [← hmembers.observation_eq hkeys hs hkey] at hindependent
    exact absurd hindependent (hdependent s hs hid)
  have hsmall : supportCount r c.partitionKey = (strongIndependent (supportUnits (partitionUnits
      (partitionOf stableKey (observations F episodes) c.partitionKey)
      (comparisons ((observations F episodes).map (·.signature)))))).length := by
    have hsome : (patternOf r c.partitionKey).isSome := by
      rw [patternOf, List.find?_isSome]
      exact ⟨c, hc, by simp⟩
    obtain ⟨c₀, hc₀⟩ := Option.isSome_iff_exists.1 hsome
    obtain ⟨hmem, hkey⟩ := patternOf_some hc₀
    rw [supportCount, hc₀, Option.map_some, Option.getD_some, candidate_count hr hmem, hkey]
  rw [hsmall]
  cases hp : patternOf r' c.partitionKey with
  | none => simp [supportCount, hp]
  | some c' =>
    obtain ⟨hmem, hkey⟩ := patternOf_some hp
    rw [supportCount, hp, Option.map_some, Option.getD_some, candidate_count hr' hmem, hkey]
    exact hle

/-- An episode that knowledge led to stays dependent on the episodes the knowledge rests on
exactly when something ties it to each of them. If no other episode joins or leaves the pattern
because of it, it then also adds no support to the pattern. -/
theorem knowledge_stays_dependent_iff
    (hr : evaluateExperienceSet F stableKey episodes = .ok r) (hc : c ∈ r.patternCandidates)
    {q : KnowledgeQualificationResult} (hq : qualifyPatternKnowledge c = .ok q)
    (hactive : lifecycleStatus q.status = .active) {T : Tenant} {d : InformedDecision}
    {episodeRows : List (String × String)} {x : AssessedOutcome}
    (hrows : T.resolve d = .ok episodeRows) (he : learningEpisode T d x = .ok e)
    (hkeys : KeysDistinct stableKey (observations F episodes ++ observations F (e :: episodes))) :
    (StaysDependent F episodes c e ↔ ∀ s ∈ episodes, s.episodeId ∈ c.supportingEpisodeIds →
      ¬Unlinked F d episodeRows x s) ∧
    (KeepsMembers F stableKey episodes e c.partitionKey →
      ((StaysDependent F episodes c e ∧
        ∀ r', evaluateExperienceSet F stableKey (e :: episodes) = .ok r' →
          supportCount r' c.partitionKey ≤ supportCount r c.partitionKey) ↔
        ∀ s ∈ episodes, s.episodeId ∈ c.supportingEpisodeIds → ¬Unlinked F d episodeRows x s)) := by
  have hiff : StaysDependent F episodes c e ↔ ∀ s ∈ episodes,
      s.episodeId ∈ c.supportingEpisodeIds → ¬Unlinked F d episodeRows x s := by
    simp only [StaysDependent, ne_eq, independent_iff_unlinked he hrows]
  refine ⟨hiff, fun hmembers => ?_⟩
  rw [← hiff]
  constructor
  · intro h
    exact h.1
  · intro hdependent
    exact ⟨hdependent, fun r' hr' => supportCount_le hr hc hq hactive hkeys hmembers hdependent hr'⟩

end Pattern

section Example

/-- A tenant that stored the signals of the sample episodes and one survey. -/
def sampleTenant : Tenant where
  rows := ⟨"row-survey", .other (some { artifactEvidenceId := "survey", resolution := .known })⟩ ::
    sampleSupport.map fun s => ⟨"row-" ++ s.episodeId, .learningSignal s.episodeId s.signal⟩
  nodup := by decide +kernel

/-- A decision on what the sample episodes taught, for the option they support. -/
def informedDecision : InformedDecision where
  factId influence rows := influence ++ String.join rows
  influences := [⟨"influence", "call", some "retention", true,
    ["episode-a", "episode-b", "episode-c"], by simp⟩]
  evidence := []
  criteria := ["retention"]
  chosen := some "call"
  recommendationRow := "row-d"

/-- The same decision with a survey of its own. -/
def surveyedDecision : InformedDecision :=
  { informedDecision with
    evidence := [⟨"row-survey", false, [], ["retention"], none, [], by simp⟩] }

def informedOutcome : AssessedOutcome where
  episodeId := "episode-d"
  assessed := sampleSignal "d" .effective
  executionEvidenceIds := ["execution-d"]
  outcomeEvidenceIds := ["outcome-d"]
  observationTimeProvenance := .sourceVerified

/-- Whether the episode of the decision is independent of an episode its knowledge rests on and
raises the support of an active pattern from three to four. -/
def strengthensItself (d : InformedDecision) : Bool :=
  (evaluateExperienceSet plainFolding sampleKey sampleSupport).toOption.any fun r =>
    r.patternCandidates.any fun c =>
      ((qualifyPatternKnowledge c).toOption.any fun q => lifecycleStatus q.status = .active) &&
      (d.influences.any fun i => i.supports && i.supportingEpisodeIds = c.supportingEpisodeIds) &&
      (learningEpisode sampleTenant d informedOutcome).toOption.any fun e =>
        !decide (StaysDependent plainFolding sampleSupport c e) &&
        (evaluateExperienceSet plainFolding sampleKey (e :: sampleSupport)).toOption.any fun r' =>
          supportCount r c.partitionKey = 3 && supportCount r' c.partitionKey = 4

theorem ok_of_any {ε α : Type} {result : Except ε α} {p : α → Bool}
    (h : result.toOption.any p = true) : ∃ a, result = .ok a ∧ p a = true := by
  cases result with
  | error e => cases h
  | ok a => exact ⟨a, rfl, h⟩

/-- The decision on knowledge alone becomes a fourth independent support of this knowledge. -/
theorem informed_decision_strengthens_its_knowledge :
    ∃ r c q e r', evaluateExperienceSet plainFolding sampleKey sampleSupport = .ok r ∧
      c ∈ r.patternCandidates ∧ qualifyPatternKnowledge c = .ok q ∧
      lifecycleStatus q.status = .active ∧
      (∃ i ∈ informedDecision.influences, i.supports = true ∧
        i.supportingEpisodeIds = c.supportingEpisodeIds) ∧
      learningEpisode sampleTenant informedDecision informedOutcome = .ok e ∧
      evaluateExperienceSet plainFolding sampleKey (e :: sampleSupport) = .ok r' ∧
      ¬StaysDependent plainFolding sampleSupport c e ∧
      supportCount r c.partitionKey = 3 ∧ supportCount r' c.partitionKey = 4 := by
  have hrun : strengthensItself informedDecision = true := by decide +kernel
  obtain ⟨r, hr, hrun⟩ := ok_of_any hrun
  obtain ⟨c, hc, hrun⟩ := List.any_eq_true.1 hrun
  rw [Bool.and_eq_true, Bool.and_eq_true] at hrun
  obtain ⟨⟨hqualified, hinformed⟩, hrun⟩ := hrun
  obtain ⟨q, hq, hactive⟩ := ok_of_any hqualified
  obtain ⟨i, hi, hinfluence⟩ := List.any_eq_true.1 hinformed
  obtain ⟨e, he, hrun⟩ := ok_of_any hrun
  rw [Bool.and_eq_true] at hrun
  obtain ⟨hindependent, hrun⟩ := hrun
  obtain ⟨r', hr', hcounts⟩ := ok_of_any hrun
  simp only [Bool.and_eq_true, Bool.not_eq_true', decide_eq_true_eq, decide_eq_false_iff_not] at *
  exact ⟨r, c, q, e, r', hr, hc, hq, hactive, ⟨i, hi, hinfluence⟩, he, hr', hindependent, hcounts⟩

/-- A key that also tells the goals of the samples apart. -/
def goalKey (p : PartitionPayload) : String :=
  sampleKey p ++
    match p.goalId with
    | .objective key => "objective:" ++ key
    | .kpis _ => "kpis"
    | .exactInstance goal => "goal:" ++ goal

/-- The sample with an episode of the intervention whose goal no one has described. -/
def goallessHistory (intervention : String) : List ExperienceEpisodeInput :=
  sampleSupport ++ [sampleEpisode "u" { sampleSignal "u" .effective with
    goalId := some "growth"
    interventionKey := some intervention
    goalSemanticSignature := none }]

/-- The outcome of the intervention that describes this goal. -/
def growthOutcome (intervention : String) : AssessedOutcome :=
  { informedOutcome with
    assessed := { sampleSignal "d" .effective with
      goalId := some "growth"
      interventionKey := some intervention } }

/-- With a survey of its own the decision stays dependent and adds no support, also where it
describes the goal of an episode of another pattern. -/
theorem surveyed_decision_adds_no_support :
    ∃ r c e, evaluateExperienceSet plainFolding goalKey (goallessHistory "mail") = .ok r ∧
      c ∈ r.patternCandidates ∧
      learningEpisode sampleTenant surveyedDecision (growthOutcome "call") = .ok e ∧
      StaysDependent plainFolding (goallessHistory "mail") c e ∧
      ∀ r', evaluateExperienceSet plainFolding goalKey (e :: goallessHistory "mail") = .ok r' →
        supportCount r' c.partitionKey ≤ supportCount r c.partitionKey := by
  have hrun : ((evaluateExperienceSet plainFolding goalKey
      (goallessHistory "mail")).toOption.any fun r => r.patternCandidates.any fun c =>
        ((qualifyPatternKnowledge c).toOption.any fun q => lifecycleStatus q.status = .active) &&
        (learningEpisode sampleTenant surveyedDecision (growthOutcome "call")).toOption.any fun e =>
          decide (KeysDistinct goalKey (observations plainFolding (goallessHistory "mail") ++
            observations plainFolding (e :: goallessHistory "mail")) ∧
            KeepsMembers plainFolding goalKey (goallessHistory "mail") e c.partitionKey)) =
      true := by decide +kernel
  obtain ⟨r, hr, hrun⟩ := ok_of_any hrun
  obtain ⟨c, hc, hrun⟩ := List.any_eq_true.1 hrun
  rw [Bool.and_eq_true] at hrun
  obtain ⟨q, hq, hactive⟩ := ok_of_any hrun.1
  obtain ⟨e, he, hrun⟩ := ok_of_any hrun.2
  obtain ⟨hkeys, hmembers⟩ := of_decide_eq_true hrun
  have hrows : sampleTenant.resolve surveyedDecision =
      .ok (sampleSupport.map fun s => (s.episodeId, "row-" ++ s.episodeId)) := by decide +kernel
  have hlinked : ∀ s ∈ goallessHistory "mail", s.episodeId ∈ c.supportingEpisodeIds →
      ¬Unlinked plainFolding surveyedDecision
        (sampleSupport.map fun s => (s.episodeId, "row-" ++ s.episodeId))
        (growthOutcome "call") s := by
    intro s _ _ hu
    exact absurd ((hu.only.same "row-survey").2 (by decide +kernel)) (by decide +kernel)
  obtain ⟨-, hboth⟩ := knowledge_stays_dependent_iff hr hc hq (of_decide_eq_true hactive) hrows he
    hkeys
  exact ⟨r, c, e, hr, hc, he, (hboth hmembers).2 hlinked⟩

/-- Whether an episode that stays dependent raises the support from three to four. -/
def describes (history : List ExperienceEpisodeInput) (x : AssessedOutcome) : Bool :=
  (evaluateExperienceSet plainFolding goalKey history).toOption.any fun r =>
    r.patternCandidates.any fun c =>
      (learningEpisode sampleTenant surveyedDecision x).toOption.any fun e =>
        (evaluateExperienceSet plainFolding goalKey (e :: history)).toOption.any fun r' =>
          StaysDependent plainFolding history c e ∧
            supportCount r c.partitionKey = 3 ∧ supportCount r' c.partitionKey = 4

/-- An episode that stays dependent can add support when it describes the goal of another one,
which then joins the pattern. -/
theorem described_goal_adds_support :
    ∃ r c e r', evaluateExperienceSet plainFolding goalKey (goallessHistory "call") = .ok r ∧
      c ∈ r.patternCandidates ∧
      learningEpisode sampleTenant surveyedDecision (growthOutcome "mail") = .ok e ∧
      evaluateExperienceSet plainFolding goalKey (e :: goallessHistory "call") = .ok r' ∧
      StaysDependent plainFolding (goallessHistory "call") c e ∧
      supportCount r c.partitionKey = 3 ∧ supportCount r' c.partitionKey = 4 := by
  have hrun : describes (goallessHistory "call") (growthOutcome "mail") = true := by decide +kernel
  obtain ⟨r, hr, hrun⟩ := ok_of_any hrun
  obtain ⟨c, hc, hrun⟩ := List.any_eq_true.1 hrun
  obtain ⟨e, he, hrun⟩ := ok_of_any hrun
  obtain ⟨r', hr', hrun⟩ := ok_of_any hrun
  exact ⟨r, c, e, r', hr, hc, he, hr', of_decide_eq_true hrun⟩

end Example

end Ajenda.Experience
