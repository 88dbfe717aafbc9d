import Ajenda.ContradictionMonotonicity

/-!
# Order of the episodes

An evaluation depends on its episodes through their list in the order of the ids only, so it is
the same for every permutation. It raises exactly when a partition with two directional units
mixes naive and aware times, or was made of payloads whose keys collided.
-/
namespace Ajenda.Experience

variable {F : CaseFolding} {stableKey : PartitionPayload → String}

/-! ## Permutations -/

theorem observations_perm {episodes others : List ExperienceEpisodeInput}
    (h : (episodes.map (·.episodeId)).Nodup) (hperm : others.Perm episodes) :
    observations F others = observations F episodes := by
  have hsorted : ∀ l : List ExperienceEpisodeInput, (l.map (·.episodeId)).Nodup →
      (l.insertionSort fun a b => a.episodeId ≤ b.episodeId).Pairwise
        fun a b => a.episodeId < b.episodeId := by
    intro l hl
    have hobs := observations_sorted (F := F) hl
    rw [observations, List.pairwise_map] at hobs
    exact hobs
  have heq : (others.insertionSort fun a b => a.episodeId ≤ b.episodeId) =
      episodes.insertionSort fun a b => a.episodeId ≤ b.episodeId := by
    refine List.Perm.eq_of_pairwise ?_ (hsorted others ?_) (hsorted episodes h) ?_
    · intro a b _ _ hab hba
      exact absurd hba hab.asymm
    · exact (hperm.map _).nodup_iff.2 h
    · exact (List.perm_insertionSort _ _).trans (hperm.trans (List.perm_insertionSort _ _).symm)
  simp only [observations, heq]

/-- An evaluation is the same for every order of the episodes. -/
theorem evaluate_perm {episodes others : List ExperienceEpisodeInput}
    (h : (episodes.map (·.episodeId)).Nodup) (hperm : others.Perm episodes) :
    evaluateExperienceSet F stableKey others = evaluateExperienceSet F stableKey episodes := by
  have hothers : (others.map (·.episodeId)).Nodup := (hperm.map _).nodup_iff.2 h
  simp only [evaluateExperienceSet, if_neg (not_not.2 h), if_neg (not_not.2 hothers),
    observations_perm h hperm]

/-! ## When a partition gives a candidate -/

/-- The partition has a strength exactly when two units have a direction. -/
theorem recurrenceStrength_isSome {units : List EvidenceUnit} :
    (recurrenceStrength units).isSome ↔ 2 ≤ (directionalUnits units).length := by
  have hsplit : (directionalUnits units).length =
      (supportUnits units).length + (contradictionUnits units).length := by
    induction units with
    | nil => rfl
    | cons u rest ih =>
      cases hd : u.direction <;>
        simp_all [directionalUnits, supportUnits, contradictionUnits] <;> omega
  have hnil : contradictionUnits units = [] ↔ (contradictionUnits units).length = 0 :=
    List.length_eq_zero_iff.symm
  simp only [recurrenceStrength, ne_eq, hnil]
  split_ifs <;> simp <;> omega

theorem casefold_lower {s : String} (h : ∀ c ∈ s.toList, 'a' ≤ c ∧ c ≤ 'z') :
    F.casefold s = s := by
  have hflat : ∀ l : List Char, (∀ c ∈ l, 'a' ≤ c ∧ c ≤ 'z') → l.flatMap F.fold = l := by
    intro l hl
    induction l with
    | nil => rfl
    | cons c l ih =>
      rw [List.flatMap_cons, F.lower c (hl c (by simp)).1 (hl c (by simp)).2,
        ih fun d hd => hl d (by simp [hd])]
      rfl
  rw [CaseFolding.casefold, hflat _ h, String.ofList_toList]

theorem type_value_normal (F : CaseFolding) (type : BusinessObjectType) :
    Normal F type.value := by
  have hlower : ∀ c ∈ type.value.toList, 'a' ≤ c ∧ c ≤ 'z' := by
    cases type <;> simp [BusinessObjectType.value]
  refine ⟨?_, ?_, casefold_lower hlower⟩
  · cases type <;> decide +kernel
  · cases type <;> decide +kernel

theorem ofValue_value (type : BusinessObjectType) :
    BusinessObjectType.ofValue type.value = some type := by
  cases type <;> decide +kernel

theorem subjectSignatures_value (types : List BusinessObjectType) :
    subjectSignatures (types.map (·.value)) = .ok types := by
  induction types with
  | nil => rfl
  | cons type rest ih =>
    rw [List.map_cons, subjectSignatures, ofValue_value, ih]
    rfl

theorem canonicalSubjects_strict (types : List BusinessObjectType) :
    ((canonicalSubjects types).map (·.value)).Pairwise (· < ·) := by
  have hall : ([BusinessObjectType.account, .contact, .lead, .opportunity, .organization,
      .person].map (·.value)).Pairwise (· < ·) := by decide +kernel
  exact hall.sublist (List.filter_sublist.map _)

theorem mem_canonicalSubjects {types : List BusinessObjectType} {type : BusinessObjectType} :
    type ∈ canonicalSubjects types ↔ type ∈ types := by
  cases type <;> simp [canonicalSubjects]

/-- The subject types of a signature are object types in canonical form. -/
theorem subject_types (F : CaseFolding) (e : ExperienceEpisodeInput) :
    ∃ types, (deriveContextSignature F e).semanticSubjectTypes = types.map (·.value) ∧
      (canonicalSubjects types).map (·.value) = types.map (·.value) := by
  have hcanonical : ∀ raw : List BusinessObjectType, ∃ types : List BusinessObjectType,
      canonicalSemanticValues F (raw.map (·.value)) = types.map (·.value) := by
    intro raw
    rw [canonicalSemanticValues_of_normal F]
    · refine ⟨(sortedSet (raw.map (·.value))).filterMap BusinessObjectType.ofValue, ?_⟩
      rw [List.map_filterMap]
      symm
      have hid : ∀ v ∈ sortedSet (raw.map (·.value)),
          (BusinessObjectType.ofValue v).map (·.value) = some v := by
        intro v hv
        obtain ⟨type, _, rfl⟩ := List.mem_map.1 (mem_sortedSet.1 hv)
        rw [ofValue_value]
        rfl
      rw [List.filterMap_congr hid, List.filterMap_some]
    · intro x hx
      obtain ⟨type, _, rfl⟩ := List.mem_map.1 hx
      exact type_value_normal F type
  have hpick : ∃ raw : List BusinessObjectType,
      (deriveContextSignature F e).semanticSubjectTypes =
        canonicalSemanticValues F (raw.map (·.value)) := by
    simp only [deriveContextSignature]
    split
    · exact ⟨e.signal.subjectRefs.map (·.objectType), by rw [List.map_map]; rfl⟩
    · exact ⟨_, rfl⟩
  obtain ⟨raw, hraw⟩ := hpick
  obtain ⟨types, htypes⟩ := hcanonical raw
  refine ⟨types, hraw.trans htypes, ?_⟩
  apply eq_of_strict (canonicalSubjects_strict types)
  · rw [← htypes]
    exact sortedSet_strict _
  · intro x
    simp only [List.mem_map, mem_canonicalSubjects]

/-! ## When an evaluation raises -/

/-- If two units of the partition have a direction, its episodes are all naive or all aware, and
its first and last episode agree on intervention and subject types: the payload kept for the
key is that of the last, so they differ only when payloads of one key do. -/
def Evaluable (obs part : List Observation) : Prop :=
  2 ≤ (directionalUnits (partitionUnits part (comparisons (obs.map (·.signature))))).length →
    (∀ a ∈ part, ∀ b ∈ part, a.signal.evaluatedAt.aware = b.signal.evaluatedAt.aware) ∧
    ∀ first ∈ part.head?, ∀ last ∈ part.getLast?,
      first.signature.recommendationClass = last.signature.recommendationClass ∧
        first.signature.semanticSubjectTypes = last.signature.semanticSubjectTypes

theorem shared_cases {α : Type*} [DecidableEq α] (xss : List (List α)) :
    shared xss = [] ∨ shared xss ∈ xss := by
  cases xss with
  | nil => exact Or.inl rfl
  | cons xs rest =>
    rw [shared]
    split
    · exact Or.inr (by simp)
    · exact Or.inl rfl

theorem canonical_scope {episodes : List ExperienceEpisodeInput} {part : List Observation}
    (hpart : ∀ o ∈ part, o ∈ observations F episodes) :
    canonicalSemanticValues F (shared ((part.map (·.signature)).map (·.scopeConditions))) =
      shared ((part.map (·.signature)).map (·.scopeConditions)) := by
  rcases shared_cases ((part.map (·.signature)).map (·.scopeConditions)) with hnil | hmem
  · rw [hnil]
    rfl
  · simp only [List.map_map, List.mem_map] at hmem
    obtain ⟨o, ho, heq⟩ := hmem
    obtain ⟨e, _, rfl⟩ := mem_observations.1 (hpart o ho)
    rw [List.map_map, ← heq]
    exact canonicalSemanticValues_idem F _

theorem canonical_invalidations {episodes : List ExperienceEpisodeInput} {part : List Observation}
    (hpart : ∀ o ∈ part, o ∈ observations F episodes) :
    canonicalSemanticValues F
        (sortedSet ((part.map (·.signature)).flatMap (·.invalidationConditions))) =
      sortedSet ((part.map (·.signature)).flatMap (·.invalidationConditions)) := by
  rw [canonicalSemanticValues_of_normal F, sortedSet_sortedSet]
  intro x hx
  rw [mem_sortedSet, List.mem_flatMap] at hx
  obtain ⟨sig, hsig, hx⟩ := hx
  obtain ⟨o, ho, rfl⟩ := List.mem_map.1 hsig
  obtain ⟨e, _, rfl⟩ := mem_observations.1 (hpart o ho)
  exact canonicalSemanticValues_normal F hx

theorem patternSemanticContext_total {first : ExperienceContextSignature}
    {types : List BusinessObjectType}
    (h : subjectSignatures first.semanticSubjectTypes = .ok types)
    (sigs : List ExperienceContextSignature) (commonScope invalidations : List String) :
    ∃ context, patternSemanticContext F first sigs commonScope invalidations = .ok context := by
  rw [patternSemanticContext, h]
  exact ⟨_, rfl⟩

/-- The candidate of a partition of times of one kind whose payload fits its first episode. -/
theorem patternCandidate_total {episodes : List ExperienceEpisodeInput} (key : String)
    {payload : PartitionPayload} {first : Observation} {part : List Observation}
    (cs : List ExperienceComparison) (assessment : RecurrenceAssessment)
    (hpart : ∀ o ∈ part, o ∈ observations F episodes) (hfirst : first ∈ part)
    (htimes : ∀ u ∈ part.tail.map (·.signal.evaluatedAt),
      u.aware = first.signal.evaluatedAt.aware)
    (hclass : first.signature.recommendationClass = some payload.recommendationClass)
    (htypes : first.signature.semanticSubjectTypes = payload.subjectTypes) :
    ∃ c, patternCandidate F key payload first part cs assessment = .ok c := by
  obtain ⟨m, hm, -, -⟩ := earliest_ok htimes
  obtain ⟨n, hn, -, -⟩ := latest_ok htimes
  obtain ⟨e, _, rfl⟩ := mem_observations.1 (hpart first hfirst)
  obtain ⟨types, hvalues, hcanonical⟩ := subject_types F e
  have hsubjects : subjectSignatures (observationOf F episodes e).signature.semanticSubjectTypes =
      .ok types := by
    show subjectSignatures (deriveContextSignature F e).semanticSubjectTypes = _
    rw [hvalues, subjectSignatures_value]
  obtain ⟨context, hcontext⟩ := patternSemanticContext_total (F := F) hsubjects
    (part.map (·.signature)) (shared ((part.map (·.signature)).map (·.scopeConditions)))
    (sortedSet ((part.map (·.signature)).flatMap (·.invalidationConditions)))
  have hspec := patternSemanticContext_ok hcontext
  obtain ⟨types', htypes', hsubject⟩ := hspec.subjects
  rw [hsubjects] at htypes'
  cases htypes'
  have hkey : context.interventionKey = payload.recommendationClass := by
    rw [hspec.intervention, hclass, Option.getD_some]
  have hsubjectTypes : context.subjectSemanticSignatures.map (·.value) = payload.subjectTypes := by
    rw [hsubject, hcanonical, ← hvalues]
    exact htypes
  have hscope := hspec.scope.trans (canonical_scope hpart)
  have hinvalid := hspec.invalidations.trans (canonical_invalidations hpart)
  simp only [patternCandidate, hm, hn, hcontext, bind, Except.bind, validateCandidate]
  rw [if_neg]
  · exact ⟨_, rfl⟩
  · rintro (h | h | h | h)
    · exact h hkey
    · exact h hsubjectTypes
    · exact h hscope
    · exact h hinvalid

theorem candidatesOf_total {obs : List Observation} {cs : List ExperienceComparison}
    {keys : List String}
    (h : ∀ key ∈ keys, ∃ found, partitionCandidate F stableKey obs cs key = .ok found) :
    ∃ candidates, candidatesOf F stableKey obs cs keys = .ok candidates := by
  induction keys with
  | nil => exact ⟨[], rfl⟩
  | cons key rest ih =>
    obtain ⟨found, hfound⟩ := h key (by simp)
    obtain ⟨others, hothers⟩ := ih fun k hk => h k (by simp [hk])
    rw [candidatesOf, hfound, hothers]
    exact ⟨_, rfl⟩

theorem partitionCandidate_total {episodes : List ExperienceEpisodeInput} {key : String}
    (h : Evaluable (observations F episodes)
      (partitionOf stableKey (observations F episodes) key)) :
    ∃ found, partitionCandidate F stableKey (observations F episodes)
      (comparisons ((observations F episodes).map (·.signature))) key = .ok found := by
  simp only [partitionCandidate]
  split
  · rename_i assessment first payload hassess hfirst hlast
    obtain ⟨s, hs, -⟩ := assessment_strength hassess
    obtain ⟨htimes, hagree⟩ := h (recurrenceStrength_isSome.1 (by rw [hs]; rfl))
    obtain ⟨last, hlastMem, hpayload⟩ := Option.bind_eq_some_iff.1 hlast
    have hfirstMem := List.mem_of_head? hfirst
    have hsame := hagree first hfirst last hlastMem
    have hpay := partitionPayload_some hpayload
    have hkind : ∀ u ∈ (partitionOf stableKey (observations F episodes) key).tail.map
        (·.signal.evaluatedAt), u.aware = first.signal.evaluatedAt.aware := by
      intro u hu
      obtain ⟨o, ho, rfl⟩ := List.mem_map.1 hu
      exact htimes o (List.mem_of_mem_tail ho) first hfirstMem
    have hcandidate := patternCandidate_total (F := F) key
      (comparisons ((observations F episodes).map (·.signature))) assessment
      (fun o ho => (mem_partitionOf.1 ho).1) hfirstMem hkind (hsame.1.trans hpay.2.1)
      (hsame.2.trans hpay.2.2.2)
    obtain ⟨c, hc⟩ := hcandidate
    exact ⟨some c, by rw [hc]; rfl⟩
  · exact ⟨none, rfl⟩

/-- The evaluation returns, and returns the same for every permutation. -/
def OrderFree (F : CaseFolding) (stableKey : PartitionPayload → String)
    (episodes : List ExperienceEpisodeInput) : Prop :=
  ∃ r, evaluateExperienceSet F stableKey episodes = .ok r ∧
    ∀ others : List ExperienceEpisodeInput, others.Perm episodes →
      evaluateExperienceSet F stableKey others = .ok r

theorem evaluable_of_ok {episodes : List ExperienceEpisodeInput}
    {r : ExperienceIntelligenceResult} (hr : evaluateExperienceSet F stableKey episodes = .ok r)
    (key : String) :
    Evaluable (observations F episodes)
      (partitionOf stableKey (observations F episodes) key) := by
  intro hdirectional
  obtain ⟨s, hs⟩ := Option.isSome_iff_exists.1 (recurrenceStrength_isSome.2 hdirectional)
  obtain ⟨c, hc, rfl⟩ := candidate_exists hr hs
  obtain ⟨payload, first, context, hspec⟩ := candidate_spec hr hc
  obtain ⟨t, ht, -⟩ := hspec.earliestAt
  have haware := earliest_aware ht
  have hall : ∀ o ∈ partitionOf stableKey (observations F episodes) c.partitionKey,
      o.signal.evaluatedAt.aware = first.signal.evaluatedAt.aware := by
    intro o ho
    have hcons := List.cons_head?_tail hspec.head
    rw [← hcons] at ho
    rcases List.mem_cons.1 ho with rfl | ho
    · rfl
    · exact haware _ (List.mem_map_of_mem ho)
  refine ⟨fun a ha b hb => (hall a ha).trans (hall b hb).symm, ?_⟩
  intro first' hfirst' last hlast
  rw [hspec.head, Option.mem_some_iff] at hfirst'
  subst hfirst'
  obtain ⟨last', hlast', hpayload⟩ := Option.bind_eq_some_iff.1 hspec.last
  rw [Option.mem_def, hlast', Option.some_inj] at hlast
  subst hlast
  have hpay := partitionPayload_some hpayload
  have hvalid := hspec.valid
  simp only [validateCandidate, hspec.semanticContext] at hvalid
  split at hvalid
  · cases hvalid
  rename_i hfields
  simp only [not_or, not_not, ne_eq] at hfields
  have hfirst := List.mem_of_head? hspec.head
  obtain ⟨hobs, p, hp, -⟩ := mem_partitionOf.1 hfirst
  have hpayFirst := partitionPayload_some hp
  constructor
  · have hclass := hfields.1
    rw [hspec.contextOf.intervention, hpayFirst.2.1, hspec.recommendationClass] at hclass
    rw [hpayFirst.2.1, hpay.2.1]
    exact congrArg some hclass
  · obtain ⟨e, _, rfl⟩ := mem_observations.1 hobs
    obtain ⟨types, hvalues, hcanonical⟩ := subject_types F e
    obtain ⟨types', htypes', hsubject⟩ := hspec.contextOf.subjects
    have hread : subjectSignatures (deriveContextSignature F e).semanticSubjectTypes =
        .ok types := by
      rw [hvalues, subjectSignatures_value]
    have htypes : types = types' := Except.ok.inj (hread.symm.trans htypes')
    have hsame := hfields.2.1
    rw [hsubject, ← htypes, hcanonical, hspec.subjectTypes] at hsame
    rw [hpay.2.2.2, ← hsame]
    exact hvalues

/-- Episodes with different ids are evaluated without an error, and to one result in every
order, exactly when each partition is evaluable. -/
theorem orderFree_iff {episodes : List ExperienceEpisodeInput}
    (hids : (episodes.map (·.episodeId)).Nodup) :
    OrderFree F stableKey episodes ↔ ∀ key, Evaluable (observations F episodes)
      (partitionOf stableKey (observations F episodes) key) := by
  constructor
  · rintro ⟨r, hr, -⟩ key
    exact evaluable_of_ok hr key
  · intro h
    have htotal : ∃ candidates, candidatesOf F stableKey (observations F episodes)
        (comparisons ((observations F episodes).map (·.signature)))
        (partitionKeys stableKey (observations F episodes)) = .ok candidates :=
      candidatesOf_total fun key _ => partitionCandidate_total (h key)
    obtain ⟨candidates, hcandidates⟩ := htotal
    have hok : ∃ r, evaluateExperienceSet F stableKey episodes = .ok r := by
      simp only [evaluateExperienceSet, if_neg (not_not.2 hids), hcandidates]
      exact ⟨_, rfl⟩
    obtain ⟨r, hr⟩ := hok
    exact ⟨r, hr, fun others hperm => (evaluate_perm hids hperm).trans hr⟩

/-- Two supporting episodes of one pattern, the second evaluated at a naive time. -/
def mixedTimes : List ExperienceEpisodeInput :=
  [sampleEpisode "a" (sampleSignal "a" .effective),
    sampleEpisode "b" { sampleSignal "b" .effective with evaluatedAt := ⟨0, none⟩ }]

/-- The whole evaluation raises when one pattern mixes naive and aware times. -/
theorem mixed_times_raise :
    (mixedTimes.map (·.episodeId)).Nodup ∧
      evaluateExperienceSet plainFolding sampleKey mixedTimes = .error .naiveAndAwareTimes ∧
      ¬OrderFree plainFolding sampleKey mixedTimes := by
  have hraise : evaluateExperienceSet plainFolding sampleKey mixedTimes =
      .error .naiveAndAwareTimes := by decide +kernel
  refine ⟨by decide +kernel, hraise, ?_⟩
  rintro ⟨r, hr, -⟩
  rw [hraise] at hr
  cases hr

theorem sample_order_free : OrderFree plainFolding sampleKey sampleSupport := by
  refine (orderFree_iff (by decide +kernel)).2 ?_
  intro key _
  have hsame : ∀ a ∈ observations plainFolding sampleSupport,
      ∀ b ∈ observations plainFolding sampleSupport,
        a.signal.evaluatedAt.aware = b.signal.evaluatedAt.aware ∧
        a.signature.recommendationClass = b.signature.recommendationClass ∧
        a.signature.semanticSubjectTypes = b.signature.semanticSubjectTypes := by decide +kernel
  have hmem : ∀ o ∈ partitionOf sampleKey (observations plainFolding sampleSupport) key,
      o ∈ observations plainFolding sampleSupport := fun o ho => (mem_partitionOf.1 ho).1
  constructor
  · intro a ha b hb
    exact (hsame a (hmem a ha) b (hmem b hb)).1
  · intro first hfirst last hlast
    exact (hsame first (hmem first (List.mem_of_head? hfirst)) last
      (hmem last (List.mem_of_getLast? hlast))).2

end Ajenda.Experience
