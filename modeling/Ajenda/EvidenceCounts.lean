import Ajenda.KnowledgeGrounding

/-!
# Evidence counts of a partition with one contradiction more

As long as a new contradicting episode is independent of every strong contradiction that stands
alone, strong independent support and supporting units can only get fewer and strong
independent contradictions only more (`AddedContradiction`), so the strength of the partition
does not rise.
-/
namespace Ajenda.Experience

/-! ## Strength in order -/

def RecurrenceStrength.rank : RecurrenceStrength → ℕ
  | .invalidated => 0
  | .contested => 1
  | .weak => 2
  | .emerging => 3
  | .supported => 4

/-- The rank of the strength of a list of units, weak when there is none. -/
def unitsRank (units : List EvidenceUnit) : ℕ :=
  ((recurrenceStrength units).map (·.1.rank)).getD RecurrenceStrength.weak.rank

/-- Less support and more strong independent contradiction never raise the strength. -/
theorem unitsRank_le {units more : List EvidenceUnit} {s : RecurrenceStrength × List String}
    (hs : recurrenceStrength more = some s)
    (hstrong : (strongIndependent (supportUnits more)).length ≤
      (strongIndependent (supportUnits units)).length)
    (hcontra : (strongIndependent (contradictionUnits units)).length ≤
      (strongIndependent (contradictionUnits more)).length)
    (hsupport : (supportUnits more).length ≤ (supportUnits units).length)
    (hopen : supportUnits units ≠ [] ∨ ambiguousUnits units ≠ [] →
      supportUnits more ≠ [] ∨ ambiguousUnits more ≠ []) :
    s.1.rank ≤ unitsRank units := by
  have hdirectional : (supportUnits units).length ≤ (directionalUnits units).length := by
    have hsub : (supportUnits units).Sublist (directionalUnits units) := by
      apply List.monotone_filter_right
      intro u hu
      simp only [decide_eq_true_eq] at hu ⊢
      exact Or.inl hu
    exact hsub.length_le
  have hstrongLe : (strongIndependent (supportUnits units)).length ≤ (supportUnits units).length :=
    List.length_filter_le _ _
  have hnil : ∀ l : List EvidenceUnit, l = [] ↔ l.length = 0 := fun l =>
    List.length_eq_zero_iff.symm
  simp only [unitsRank, recurrenceStrength, ne_eq, hnil] at hs hopen ⊢
  split_ifs at hs with h1 h2 h3 h4 h5 h6 h7
  all_goals (rw [Option.some_inj] at hs; subst hs)
  all_goals split_ifs <;> simp only [Option.map_some, Option.map_none, Option.getD_some,
    Option.getD_none, RecurrenceStrength.rank] <;> omega

/-! ## Eligibility with one more episode -/

theorem overlap_congr {xs ys zs : List String} (h : ∀ x, x ∈ ys ↔ x ∈ zs) :
    overlap xs ys = overlap xs zs := by
  simp [overlap, h]

theorem eligibility_congr {active more : List String} (h : ∀ x, x ∈ active ↔ x ∈ more)
    (o : Observation) : eligibility active o = eligibility more o := by
  simp only [eligibility, overlap_congr h]

theorem baseDirection_ne_ambiguous (signal : DecisionLearningSignal) :
    baseDirection signal ≠ .ambiguous := by
  unfold baseDirection
  split <;> simp

/-- The direction of an eligible episode is that of its outcome. -/
theorem eligibility_direction {active : List String} {o : Observation}
    (h : (eligibility active o).tier ≠ .ineligible) :
    (eligibility active o).direction = baseDirection o.signal := by
  simp only [eligibility, excludedEligibility] at h ⊢
  split
  · rename_i hc
    simp [hc] at h
  split
  · rename_i _ hc
    simp_all
  split
  · rename_i _ _ hc
    simp_all
  split
  · rename_i _ _ _ hc
    simp_all
  split
  · rename_i _ _ _ _ hc
    simp_all
  · rfl

/-! ## The directions inside a unit -/

theorem mergeDirections_support {ds : List EvidenceUnitDirection} (h : .ambiguous ∉ ds) :
    mergeDirections ds = .support ↔ .support ∈ ds ∧ .contradiction ∉ ds := by
  simp only [mergeDirections, if_neg h]
  split_ifs with h1 h2 h3 <;> simp_all

theorem mergeDirections_open {ds : List EvidenceUnitDirection} (h : .ambiguous ∉ ds) :
    (mergeDirections ds = .support ∨ mergeDirections ds = .ambiguous) ↔ .support ∈ ds := by
  simp only [mergeDirections, if_neg h]
  split_ifs with h1 h2 h3 <;> simp_all

/-- An episode whose outcome counts in its partition. -/
def Counts (part : List Observation) (o : Observation) : Prop :=
  (eligibility (activeScopeConditions part) o).tier ≠ .ineligible

def usableDirections (part : List Observation) (g : List String) :
    List EvidenceUnitDirection :=
  ((g.filterMap (eligibilityById part)).filter (·.tier ≠ .ineligible)).map (·.direction)

theorem evidenceUnit_direction {part : List Observation} {cs : List ExperienceComparison}
    {g : List String} {u : EvidenceUnit}
    (hu : evidenceUnit (eligibilityById part) cs g = some u) :
    u.direction = mergeDirections (usableDirections part g) := by
  simp only [evidenceUnit] at hu
  split at hu
  · cases hu
  · cases hu
    rfl

theorem evidenceUnit_exists {part : List Observation} (cs : List ExperienceComparison)
    {g : List String} {d : EvidenceUnitDirection} (hd : d ∈ usableDirections part g) :
    ∃ u, evidenceUnit (eligibilityById part) cs g = some u := by
  simp only [evidenceUnit]
  rw [if_neg]
  · exact ⟨_, rfl⟩
  · intro hnil
    rw [usableDirections, hnil] at hd
    cases hd

namespace PartOf
variable {obs part : List Observation}

theorem mem_usableDirections (h : PartOf obs part) {g : List String}
    {d : EvidenceUnitDirection} :
    d ∈ usableDirections part g ↔
      ∃ o ∈ part, o.id ∈ g ∧ Counts part o ∧ baseDirection o.signal = d := by
  simp only [usableDirections, List.mem_map, List.mem_filter, List.mem_filterMap,
    decide_eq_true_eq]
  constructor
  · rintro ⟨item, ⟨⟨id, hid, hitem⟩, htier⟩, rfl⟩
    obtain ⟨o, ho, rfl⟩ := Option.map_eq_some_iff.1 hitem
    have hoid : o.id = id := by simpa using List.find?_some ho
    refine ⟨o, List.mem_of_find?_eq_some ho, hoid ▸ hid, htier, ?_⟩
    exact (eligibility_direction htier).symm
  · rintro ⟨o, ho, hid, hcounts, rfl⟩
    exact ⟨_, ⟨⟨o.id, hid, h.eligibilityById_eq ho⟩, hcounts⟩, eligibility_direction hcounts⟩

theorem not_ambiguous (h : PartOf obs part) (g : List String) :
    .ambiguous ∉ usableDirections part g := by
  intro hmem
  obtain ⟨o, -, -, -, hdir⟩ := h.mem_usableDirections.1 hmem
  exact baseDirection_ne_ambiguous _ hdir

/-- Every id of a unit is that of an episode, and the unit is the component of that episode. -/
theorem unit_component (h : PartOf obs part) {u : EvidenceUnit}
    (hu : u ∈ partitionUnits part (comparisons (obs.map (·.signature)))) {o : Observation}
    (hid : o.id ∈ u.episodeIds) :
    u.episodeIds = componentOf obs part o ∧
      evidenceUnit (eligibilityById part)
        (partitionComparisons part (comparisons (obs.map (·.signature))))
        (componentOf obs part o) = some u := by
  obtain ⟨g, hg, hunit⟩ := mem_units.1 hu
  obtain ⟨x, hx, rfl⟩ := h.mem_components.1 hg
  rw [evidenceUnit_ids hunit] at hid ⊢
  have hlink := (DisjointSets.mem_classOf.1 hid).2
  have hsame : componentOf obs part x = componentOf obs part o := by
    classical
    apply List.filter_congr
    intro y _
    simp only [decide_eq_decide]
    exact ⟨fun hy => (hlink.symm _ _).trans _ _ _ hy, fun hy => hlink.trans _ _ _ hy⟩
  rw [hsame] at hunit ⊢
  exact ⟨rfl, hunit⟩

/-- Two units with an episode in common are one. -/
theorem units_disjoint (h : PartOf obs part) {u v : EvidenceUnit}
    (hu : u ∈ partitionUnits part (comparisons (obs.map (·.signature))))
    (hv : v ∈ partitionUnits part (comparisons (obs.map (·.signature)))) {o : Observation}
    (hou : o.id ∈ u.episodeIds) (hov : o.id ∈ v.episodeIds) : u = v := by
  have h1 := (h.unit_component hu hou).2
  have h2 := (h.unit_component hv hov).2
  rw [h1] at h2
  exact Option.some_inj.1 h2

/-- The unit of an episode that counts. -/
theorem unit_of_counts (h : PartOf obs part) {o : Observation} (ho : o ∈ part)
    (hc : Counts part o) :
    ∃ u ∈ partitionUnits part (comparisons (obs.map (·.signature))),
      u.episodeIds = componentOf obs part o ∧
      u.direction = mergeDirections (usableDirections part (componentOf obs part o)) ∧
      baseDirection o.signal ∈ usableDirections part (componentOf obs part o) := by
  have hd : baseDirection o.signal ∈ usableDirections part (componentOf obs part o) :=
    h.mem_usableDirections.2 ⟨o, ho, self_mem_componentOf _ ho, hc, rfl⟩
  obtain ⟨u, hu⟩ := evidenceUnit_exists
    (partitionComparisons part (comparisons (obs.map (·.signature)))) hd
  exact ⟨u, mem_units.2 ⟨_, h.mem_components.2 ⟨o, ho, rfl⟩, hu⟩, evidenceUnit_ids hu,
    evidenceUnit_direction hu, hd⟩

/-- The pattern has support, contradicted or not, when an episode that counts supports it. -/
theorem open_iff (h : PartOf obs part) :
    (supportUnits (partitionUnits part (comparisons (obs.map (·.signature)))) ≠ [] ∨
      ambiguousUnits (partitionUnits part (comparisons (obs.map (·.signature)))) ≠ []) ↔
      ∃ o ∈ part, Counts part o ∧ baseDirection o.signal = .support := by
  constructor
  · intro hopen
    obtain ⟨u, hu, hdir⟩ : ∃ u ∈ partitionUnits part (comparisons (obs.map (·.signature))),
        u.direction = .support ∨ u.direction = .ambiguous := by
      rcases hopen with hne | hne
      · obtain ⟨u, hu⟩ := List.exists_mem_of_ne_nil _ hne
        simp only [supportUnits, List.mem_filter, decide_eq_true_eq] at hu
        exact ⟨u, hu.1, Or.inl hu.2⟩
      · obtain ⟨u, hu⟩ := List.exists_mem_of_ne_nil _ hne
        simp only [ambiguousUnits, List.mem_filter, decide_eq_true_eq] at hu
        exact ⟨u, hu.1, Or.inr hu.2⟩
    obtain ⟨g, _, hunit⟩ := mem_units.1 hu
    rw [evidenceUnit_direction hunit, mergeDirections_open (h.not_ambiguous g)] at hdir
    obtain ⟨o, ho, -, hc, hs⟩ := h.mem_usableDirections.1 hdir
    exact ⟨o, ho, hc, hs⟩
  · rintro ⟨o, ho, hc, hs⟩
    obtain ⟨u, hu, -, hdir, hmem⟩ := h.unit_of_counts ho hc
    rw [hs] at hmem
    have hopen := (mergeDirections_open (h.not_ambiguous (componentOf obs part o))).2 hmem
    rw [← hdir] at hopen
    rcases hopen with hsup | hamb
    · exact Or.inl (List.ne_nil_of_mem (List.mem_filter.2 ⟨hu, by simpa using hsup⟩))
    · exact Or.inr (List.ne_nil_of_mem (List.mem_filter.2 ⟨hu, by simpa using hamb⟩))

end PartOf

/-! ## A partition with one episode more -/

/-- A partition and the same partition when an episode may have joined it. -/
structure Grown (obs part more bigger : List Observation) (new : Observation) : Prop where
  small : PartOf obs part
  large : PartOf more bigger
  mem_large : ∀ {o}, o ∈ part → o ∈ bigger
  mem : ∀ o ∈ bigger, o = new ∨ o ∈ part
  scopes : new ∈ bigger → ∀ o ∈ part, o.signature.scopeConditions = new.signature.scopeConditions

namespace Grown
variable {obs part more bigger : List Observation} {new : Observation}

theorem eligibility_eq (h : Grown obs part more bigger new) {o : Observation}
    (ho : o ∈ part) : eligibility (activeScopeConditions part) o =
      eligibility (activeScopeConditions bigger) o := by
  apply eligibility_congr
  intro x
  simp only [activeScopeConditions, mem_sortedSet, List.mem_flatMap]
  constructor
  · rintro ⟨y, hy, hx⟩
    exact ⟨y, h.mem_large hy, hx⟩
  · rintro ⟨y, hy, hx⟩
    rcases h.mem y hy with rfl | hpart
    · exact ⟨o, ho, by rw [h.scopes hy o ho]; exact hx⟩
    · exact ⟨y, hpart, hx⟩

theorem soloUnit_eq (h : Grown obs part more bigger new) {o : Observation}
    (ho : o ∈ part) : soloUnit part o = soloUnit bigger o := by
  simp only [soloUnit, h.eligibility_eq ho]

theorem isolated_small (h : Grown obs part more bigger new) {o : Observation}
    (hiso : Isolated bigger o) : Isolated part o := by
  intro x hx hne
  exact hiso x (h.mem_large hx) hne

/-- No strong independent support appears unless the new episode is such support. -/
theorem strongSupport_le (h : Grown obs part more bigger new)
    (hnew : new ∈ bigger → Isolated bigger new → baseDirection new.signal ≠ .support) :
    (strongIndependent (supportUnits
        (partitionUnits bigger (comparisons (more.map (·.signature)))))).length ≤
      (strongIndependent (supportUnits
        (partitionUnits part (comparisons (obs.map (·.signature)))))).length := by
  have hnodup := (h.large.units_nodup.filter (fun u => decide (u.direction = .support))).filter
    (fun u => decide (u.tier = .strong ∧ u.independence = .independent))
  refine (List.subperm_of_subset hnodup ?_).length_le
  intro u hu
  simp only [List.mem_filter, decide_eq_true_eq] at hu
  obtain ⟨o, ho, hiso, rfl⟩ := h.large.unit_independent hu.1.1 hu.2.2
  have htier : (eligibility (activeScopeConditions bigger) o).tier = .strong := hu.2.1
  have hdirection : baseDirection o.signal = .support :=
    (eligibility_strong htier).2.symm.trans hu.1.2
  have hmem : o ∈ part := by
    rcases h.mem o ho with rfl | hpart
    · exact absurd hdirection (hnew ho hiso)
    · exact hpart
  have hin := h.small.soloUnit_mem hmem (h.isolated_small hiso)
    (by rw [h.eligibility_eq hmem, htier]; simp)
  rw [h.soloUnit_eq hmem] at hin
  simp only [strongIndependent, supportUnits, List.mem_filter, decide_eq_true_eq]
  exact ⟨⟨hin, hu.1.2⟩, hu.2⟩

end Grown

/-- A partition, the same partition with a contradicting episode added, and what the added
episode leaves alone. -/
structure AddedContradiction (obs part more bigger : List Observation) (new : Observation) :
    Prop where
  small : PartOf obs part
  large : PartOf more bigger
  mem : ∀ o, o ∈ bigger ↔ o = new ∨ o ∈ part
  fresh : ∀ o ∈ part, o.id ≠ new.id
  unfavourable : baseDirection new.signal = .contradiction
  scopes : ∀ o ∈ part, o.signature.scopeConditions = new.signature.scopeConditions
  untouched : ∀ o ∈ part, (eligibility (activeScopeConditions part) o).tier = .strong →
    baseDirection o.signal = .contradiction → Isolated part o → pairStatus o new = .independent

namespace AddedContradiction
variable {obs part more bigger : List Observation} {new : Observation}

theorem mem_large (h : AddedContradiction obs part more bigger new) {o : Observation}
    (ho : o ∈ part) : o ∈ bigger :=
  (h.mem o).2 (Or.inr ho)

theorem grown (h : AddedContradiction obs part more bigger new) :
    Grown obs part more bigger new :=
  ⟨h.small, h.large, h.mem_large, fun o => (h.mem o).1, fun _ => h.scopes⟩

theorem eligibility_eq (h : AddedContradiction obs part more bigger new) {o : Observation}
    (ho : o ∈ part) : eligibility (activeScopeConditions part) o =
      eligibility (activeScopeConditions bigger) o :=
  h.grown.eligibility_eq ho

theorem soloUnit_eq (h : AddedContradiction obs part more bigger new) {o : Observation}
    (ho : o ∈ part) : soloUnit part o = soloUnit bigger o :=
  h.grown.soloUnit_eq ho

/-- Support in the larger partition comes from the smaller one. -/
theorem support_mem (h : AddedContradiction obs part more bigger new) {o : Observation}
    (ho : o ∈ bigger) (hs : baseDirection o.signal = .support) : o ∈ part := by
  rcases (h.mem o).1 ho with rfl | ho
  · rw [h.unfavourable] at hs
    cases hs
  · exact ho

theorem isolated_large (h : AddedContradiction obs part more bigger new) {o : Observation}
    (ho : o ∈ part) (hstrong : (eligibility (activeScopeConditions part) o).tier = .strong)
    (hc : baseDirection o.signal = .contradiction) (hiso : Isolated part o) :
    Isolated bigger o := by
  intro x hx hne
  rcases (h.mem x).1 hx with rfl | hx
  · exact h.untouched o ho hstrong hc hiso
  · exact hiso x hx hne

theorem component_mono (h : AddedContradiction obs part more bigger new) {o : Observation}
    {id : String} (hid : id ∈ componentOf obs part o) : id ∈ componentOf more bigger o := by
  obtain ⟨hmem, hlink⟩ := DisjointSets.mem_classOf.1 hid
  refine DisjointSets.mem_classOf.2 ⟨?_, DisjointSets.linked_mono ?_ hlink⟩
  · rw [mem_sortedSet, List.mem_map] at hmem ⊢
    obtain ⟨x, hx, rfl⟩ := hmem
    exact ⟨x, h.mem_large hx, rfl⟩
  · intro p hp
    obtain ⟨a, ha, b, hb, hab, hdep, rfl⟩ := h.small.mem_dependentPairs.1 hp
    exact h.large.mem_dependentPairs.2
      ⟨a, h.mem_large ha, b, h.mem_large hb, hab, hdep, rfl⟩

/-- No strong independent support appears. -/
theorem strongSupport_le (h : AddedContradiction obs part more bigger new) :
    (strongIndependent (supportUnits
        (partitionUnits bigger (comparisons (more.map (·.signature)))))).length ≤
      (strongIndependent (supportUnits
        (partitionUnits part (comparisons (obs.map (·.signature)))))).length := by
  refine h.grown.strongSupport_le fun _ _ => ?_
  rw [h.unfavourable]
  simp

/-- No strong independent contradiction is lost. -/
theorem strongContradiction_le (h : AddedContradiction obs part more bigger new) :
    (strongIndependent (contradictionUnits
        (partitionUnits part (comparisons (obs.map (·.signature)))))).length ≤
      (strongIndependent (contradictionUnits
        (partitionUnits bigger (comparisons (more.map (·.signature)))))).length := by
  have hnodup := (h.small.units_nodup.filter
    (fun u => decide (u.direction = .contradiction))).filter
    (fun u => decide (u.tier = .strong ∧ u.independence = .independent))
  refine (List.subperm_of_subset hnodup ?_).length_le
  intro u hu
  simp only [List.mem_filter, decide_eq_true_eq] at hu
  obtain ⟨o, ho, hiso, rfl⟩ := h.small.unit_independent hu.1.1 hu.2.2
  have htier : (eligibility (activeScopeConditions part) o).tier = .strong := hu.2.1
  have hdir := (eligibility_strong htier).2.symm.trans hu.1.2
  have hin := h.large.soloUnit_mem (h.mem_large ho) (h.isolated_large ho htier hdir hiso)
    (by rw [← h.eligibility_eq ho, htier]; simp)
  rw [← h.soloUnit_eq ho] at hin
  simp only [strongIndependent, contradictionUnits, List.mem_filter, decide_eq_true_eq]
  exact ⟨⟨hin, hu.1.2⟩, hu.2⟩

/-- A supporting unit of the larger partition contains one of the smaller. -/
theorem supportUnit_source (h : AddedContradiction obs part more bigger new) {v : EvidenceUnit}
    (hv : v ∈ supportUnits (partitionUnits bigger (comparisons (more.map (·.signature))))) :
    ∃ u ∈ supportUnits (partitionUnits part (comparisons (obs.map (·.signature)))),
      ∀ id ∈ u.episodeIds, id ∈ v.episodeIds := by
  simp only [supportUnits, List.mem_filter, decide_eq_true_eq] at hv
  obtain ⟨g, _, hunit⟩ := mem_units.1 hv.1
  have hdir := (evidenceUnit_direction hunit).symm.trans hv.2
  rw [mergeDirections_support (h.large.not_ambiguous g)] at hdir
  obtain ⟨o, ho, hid, hcounts, hs⟩ := h.large.mem_usableDirections.1 hdir.1
  have hmem := h.support_mem ho hs
  have hcountsSmall : Counts part o := by
    rw [Counts, h.eligibility_eq hmem]
    exact hcounts
  obtain ⟨u, hu, hids, hudir, hin⟩ := h.small.unit_of_counts hmem hcountsSmall
  have hcomp := (h.large.unit_component (o := o) hv.1 (by rw [evidenceUnit_ids hunit]; exact hid)).1
  have hsub : ∀ id ∈ u.episodeIds, id ∈ v.episodeIds := by
    intro id hmemid
    rw [hids] at hmemid
    rw [hcomp]
    exact h.component_mono hmemid
  refine ⟨u, List.mem_filter.2 ⟨hu, ?_⟩, hsub⟩
  rw [hs] at hin
  have hno : .contradiction ∉ usableDirections part (componentOf obs part o) := by
    intro hcontra
    obtain ⟨x, hx, hxid, hxc, hxs⟩ := h.small.mem_usableDirections.1 hcontra
    have hxlarge : Counts bigger x := by
      rw [Counts, ← h.eligibility_eq hx]
      exact hxc
    have hxg : x.id ∈ g := by
      rw [← evidenceUnit_ids hunit]
      exact hsub _ (by rw [hids]; exact hxid)
    exact hdir.2 (h.large.mem_usableDirections.2 ⟨x, h.mem_large hx, hxg, hxlarge, hxs⟩)
  rw [decide_eq_true_eq, hudir, mergeDirections_support (h.small.not_ambiguous _)]
  exact ⟨hin, hno⟩

theorem support_le (h : AddedContradiction obs part more bigger new) :
    (supportUnits (partitionUnits bigger (comparisons (more.map (·.signature))))).length ≤
      (supportUnits (partitionUnits part (comparisons (obs.map (·.signature))))).length := by
  classical
  choose! source hsource using fun v => h.supportUnit_source (v := v)
  have hinj : ∀ v ∈ supportUnits (partitionUnits bigger (comparisons (more.map (·.signature)))),
      ∀ w ∈ supportUnits (partitionUnits bigger (comparisons (more.map (·.signature)))),
        source v = source w → v = w := by
    intro v hv w hw heq
    have hsv := hsource v hv
    have hsw := hsource w hw
    obtain ⟨g, hg, hunit⟩ := mem_units.1 (List.mem_filter.1 hsv.1).1
    obtain ⟨o, ho, rfl⟩ := h.small.mem_components.1 hg
    have hid : o.id ∈ (source v).episodeIds := by
      rw [evidenceUnit_ids hunit]
      exact self_mem_componentOf _ ho
    exact h.large.units_disjoint (List.mem_filter.1 hv).1 (List.mem_filter.1 hw).1
      (hsv.2 _ hid) (hsw.2 _ (heq ▸ hid))
  have hnodup : ((supportUnits (partitionUnits bigger
      (comparisons (more.map (·.signature))))).map source).Nodup :=
    (h.large.units_nodup.filter _).map_on hinj
  have hsub : (supportUnits (partitionUnits bigger
      (comparisons (more.map (·.signature))))).map source ⊆
        supportUnits (partitionUnits part (comparisons (obs.map (·.signature)))) := by
    intro u hu
    obtain ⟨v, hv, rfl⟩ := List.mem_map.1 hu
    exact (hsource v hv).1
  have hle := (List.subperm_of_subset hnodup hsub).length_le
  rwa [List.length_map] at hle

/-- The strength of the larger partition is no better. -/
theorem strength_le (h : AddedContradiction obs part more bigger new)
    {s : RecurrenceStrength × List String}
    (hs : recurrenceStrength (partitionUnits bigger (comparisons (more.map (·.signature)))) =
      some s) :
    s.1.rank ≤ unitsRank (partitionUnits part (comparisons (obs.map (·.signature)))) := by
  refine unitsRank_le hs h.strongSupport_le h.strongContradiction_le h.support_le ?_
  rw [h.small.open_iff, h.large.open_iff]
  rintro ⟨o, ho, hcounts, hsupport⟩
  refine ⟨o, h.mem_large ho, ?_, hsupport⟩
  rw [Counts, ← h.eligibility_eq ho]
  exact hcounts

end AddedContradiction

end Ajenda.Experience
