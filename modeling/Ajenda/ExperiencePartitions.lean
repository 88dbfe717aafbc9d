import Mathlib.Data.List.Nodup
import Ajenda.ExperienceEvaluation

/-!
# The evidence units of a partition

What the component bookkeeping amounts to. In a partition whose episodes have different ids a
unit is independent exactly when its one episode is independent of every other episode of the
partition (`unit_independent`, `soloUnit_mem`).
-/
namespace Ajenda.Experience

/-! ## Observations and comparisons -/

section Observations
variable (F : CaseFolding) (episodes : List ExperienceEpisodeInput)

/-- The signatures before goal authority is resolved, in the order of the episode ids. -/
def derivedSignatures : List ExperienceContextSignature :=
  (episodes.insertionSort fun a b => a.episodeId ≤ b.episodeId).map (deriveContextSignature F)

/-- The observation of an episode in a set of episodes. -/
def observationOf (e : ExperienceEpisodeInput) : Observation :=
  ⟨resolveSignature (derivedSignatures F episodes) (deriveContextSignature F e), e.signal⟩

variable {F episodes}

theorem mem_observations {o : Observation} :
    o ∈ observations F episodes ↔ ∃ e ∈ episodes, o = observationOf F episodes e := by
  simp only [observations, List.mem_map, List.mem_insertionSort]
  constructor
  · rintro ⟨e, he, rfl⟩
    exact ⟨e, he, rfl⟩
  · rintro ⟨e, he, rfl⟩
    exact ⟨e, he, rfl⟩

theorem observations_sorted (h : (episodes.map (·.episodeId)).Nodup) :
    (observations F episodes).Pairwise fun a b => a.id < b.id := by
  rw [observations, List.pairwise_map]
  have hle : (episodes.insertionSort fun a b => a.episodeId ≤ b.episodeId).Pairwise
      fun a b => a.episodeId ≤ b.episodeId := by
    apply List.pairwise_insertionSort
  have hne : (episodes.insertionSort fun a b => a.episodeId ≤ b.episodeId).Pairwise
      fun a b => a.episodeId ≠ b.episodeId := by
    have hperm := (List.perm_insertionSort (fun a b : ExperienceEpisodeInput =>
      a.episodeId ≤ b.episodeId) episodes).map (·.episodeId)
    exact List.pairwise_map.1 (hperm.nodup_iff.2 h)
  refine (hle.and hne).imp ?_
  intro a b hab
  exact lt_of_le_of_ne hab.1 hab.2

end Observations

theorem mem_comparisons {sigs : List ExperienceContextSignature}
    (h : sigs.Pairwise fun a b => a.episodeId < b.episodeId) {c : ExperienceComparison} :
    c ∈ comparisons sigs ↔
      ∃ a ∈ sigs, ∃ b ∈ sigs, a.episodeId < b.episodeId ∧ c = compareSignatures a b := by
  induction sigs with
  | nil => simp [comparisons]
  | cons sig rest ih =>
    have hlt := (List.pairwise_cons.1 h).1
    have hrest := ih (List.pairwise_cons.1 h).2
    rw [comparisons, List.mem_append, hrest, List.mem_map]
    constructor
    · rintro (⟨b, hb, rfl⟩ | ⟨a, ha, b, hb, hab, rfl⟩)
      · exact ⟨sig, by simp, b, by simp [hb], hlt b hb, rfl⟩
      · exact ⟨a, by simp [ha], b, by simp [hb], hab, rfl⟩
    · rintro ⟨a, ha, b, hb, hab, rfl⟩
      rcases List.mem_cons.1 ha with rfl | ha'
      · rcases List.mem_cons.1 hb with rfl | hb'
        · exact absurd hab (lt_irrefl _)
        · exact Or.inl ⟨b, hb', rfl⟩
      · rcases List.mem_cons.1 hb with rfl | hb'
        · exact absurd hab (hlt a ha').asymm
        · exact Or.inr ⟨a, ha', b, hb', hab, rfl⟩

theorem overlap_false {xs ys : List String} : overlap xs ys = false ↔ ∀ x ∈ xs, x ∉ ys := by
  simp [overlap]

/-- How two observations depend on each other. -/
def pairStatus (a b : Observation) : IndependenceStatus :=
  (compareSignatures a.signature b.signature).independence

theorem pairStatus_comm {a b : Observation} (h : a.id ≠ b.id) : pairStatus a b = pairStatus b a := by
  rcases lt_or_gt_of_ne h with hlt | hlt
  · have h1 : ¬b.signature.episodeId < a.signature.episodeId := hlt.asymm
    have h2 : a.signature.episodeId < b.signature.episodeId := hlt
    simp [pairStatus, compareSignatures, h1, h2]
  · have h1 : b.signature.episodeId < a.signature.episodeId := hlt
    have h2 : ¬a.signature.episodeId < b.signature.episodeId := hlt.asymm
    simp [pairStatus, compareSignatures, h1, h2]

theorem compareSignatures_ids {a b : Observation} (h : a.id < b.id) :
    (compareSignatures a.signature b.signature).leftEpisodeId = a.id ∧
      (compareSignatures a.signature b.signature).rightEpisodeId = b.id := by
  have h1 : ¬b.signature.episodeId < a.signature.episodeId := h.asymm
  simp [compareSignatures, h1, Observation.id]

/-! ## Partitions of a sorted set -/

/-- The episodes of a partition inside the sorted observations of a set. -/
structure PartOf (obs part : List Observation) : Prop where
  sorted : obs.Pairwise fun a b => a.id < b.id
  sublist : part.Sublist obs

namespace PartOf
variable {obs part : List Observation}

theorem ids_inj (h : PartOf obs part) {a b : Observation} (ha : a ∈ obs) (hb : b ∈ obs)
    (hid : a.id = b.id) : a = b := by
  have hids : (obs.map Observation.id).Nodup := by
    rw [List.Nodup, List.pairwise_map]
    exact h.sorted.imp fun hxy => hxy.ne
  exact List.inj_on_of_nodup_map hids ha hb hid

theorem mem (h : PartOf obs part) {a : Observation} (ha : a ∈ part) : a ∈ obs :=
  h.sublist.subset ha

theorem find_id (h : PartOf obs part) {o : Observation} (ho : o ∈ part) :
    part.find? (·.id = o.id) = some o := by
  have hsome : (part.find? fun x => decide (x.id = o.id)).isSome := by
    rw [List.find?_isSome]
    exact ⟨o, ho, by simp⟩
  obtain ⟨x, hx⟩ := Option.isSome_iff_exists.1 hsome
  have hid : x.id = o.id := by simpa using List.find?_some hx
  have hmem := List.mem_of_find?_eq_some hx
  rw [hx, h.ids_inj (h.mem hmem) (h.mem ho) hid]

theorem eligibilityById_eq (h : PartOf obs part) {o : Observation} (ho : o ∈ part) :
    eligibilityById part o.id = some (eligibility (activeScopeConditions part) o) := by
  rw [eligibilityById, h.find_id ho]
  rfl

theorem mem_partitionComparisons (h : PartOf obs part) {c : ExperienceComparison} :
    c ∈ partitionComparisons part (comparisons (obs.map (·.signature))) ↔
      ∃ a ∈ part, ∃ b ∈ part, a.id < b.id ∧ c = compareSignatures a.signature b.signature := by
  have hsigs : (obs.map (·.signature)).Pairwise fun a b => a.episodeId < b.episodeId := by
    rw [List.pairwise_map]
    exact h.sorted
  rw [partitionComparisons, List.mem_filter, mem_comparisons hsigs]
  constructor
  · rintro ⟨⟨a, ha, b, hb, hab, rfl⟩, hids⟩
    obtain ⟨o, ho, rfl⟩ := List.mem_map.1 ha
    obtain ⟨p, hp, rfl⟩ := List.mem_map.1 hb
    have heq := compareSignatures_ids (a := o) (b := p) hab
    rw [heq.1, heq.2] at hids
    obtain ⟨⟨x, hx, hxo⟩, ⟨y, hy, hyp⟩⟩ :
        (∃ x ∈ part, x.id = o.id) ∧ ∃ y ∈ part, y.id = p.id := by simpa using hids
    obtain rfl := h.ids_inj (h.mem hx) ho hxo
    obtain rfl := h.ids_inj (h.mem hy) hp hyp
    exact ⟨x, hx, y, hy, hab, rfl⟩
  · rintro ⟨a, ha, b, hb, hab, rfl⟩
    have heq := compareSignatures_ids hab
    refine ⟨⟨_, List.mem_map_of_mem (h.mem ha), _, List.mem_map_of_mem (h.mem hb), hab, rfl⟩, ?_⟩
    rw [heq.1, heq.2]
    simpa using ⟨⟨a, ha, rfl⟩, ⟨b, hb, rfl⟩⟩

end PartOf

/-! ## Components -/

/-- Every other episode of the partition is independent of the episode. -/
def Isolated (part : List Observation) (o : Observation) : Prop :=
  ∀ x ∈ part, x.id ≠ o.id → pairStatus o x = .independent

/-- The pairs of dependent episodes of a partition, by id. -/
def dependentPairs (part : List Observation) (cs : List ExperienceComparison) :
    List (String × String) :=
  let ids := sortedSet (part.map (·.id))
  ((partitionComparisons part cs).filter fun c =>
    c.leftEpisodeId ∈ ids ∧ c.rightEpisodeId ∈ ids ∧ c.independence = .dependent).map fun c =>
      (c.leftEpisodeId, c.rightEpisodeId)

/-- The ids a chain of dependent pairs joins to the id of an observation. -/
noncomputable def componentOf (obs part : List Observation) (o : Observation) : List String :=
  DisjointSets.classOf (sortedSet (part.map (·.id)))
    (dependentPairs part (comparisons (obs.map (·.signature)))) o.id

theorem self_mem_componentOf (obs : List Observation) {part : List Observation} {o : Observation}
    (ho : o ∈ part) :
    o.id ∈ componentOf obs part o :=
  DisjointSets.self_mem_classOf _ (mem_sortedSet.2 (List.mem_map_of_mem ho))

theorem partitionComponents_eq (part : List Observation) (cs : List ExperienceComparison) :
    partitionComponents part cs =
      DisjointSets.components (sortedSet (part.map (·.id))) (dependentPairs part cs) := rfl

namespace PartOf
variable {obs part : List Observation}

theorem mem_dependentPairs (h : PartOf obs part) {p : String × String} :
    p ∈ dependentPairs part (comparisons (obs.map (·.signature))) ↔
      ∃ a ∈ part, ∃ b ∈ part, a.id < b.id ∧ pairStatus a b = .dependent ∧ p = (a.id, b.id) := by
  simp only [dependentPairs, List.mem_map, List.mem_filter, h.mem_partitionComparisons]
  constructor
  · rintro ⟨c, ⟨⟨a, ha, b, hb, hab, rfl⟩, hc⟩, rfl⟩
    have heq := compareSignatures_ids hab
    refine ⟨a, ha, b, hb, hab, ?_, by rw [heq.1, heq.2]⟩
    simp only [decide_eq_true_eq] at hc
    exact hc.2.2
  · rintro ⟨a, ha, b, hb, hab, hdep, rfl⟩
    have heq := compareSignatures_ids hab
    refine ⟨_, ⟨⟨a, ha, b, hb, hab, rfl⟩, ?_⟩, by rw [heq.1, heq.2]⟩
    rw [heq.1, heq.2]
    simp only [decide_eq_true_eq, mem_sortedSet]
    exact ⟨List.mem_map_of_mem ha, List.mem_map_of_mem hb, hdep⟩

theorem pairs_mem_ids (h : PartOf obs part) :
    ∀ p ∈ dependentPairs part (comparisons (obs.map (·.signature))),
      p.1 ∈ sortedSet (part.map (·.id)) ∧ p.2 ∈ sortedSet (part.map (·.id)) := by
  intro p hp
  obtain ⟨a, ha, b, hb, -, -, rfl⟩ := h.mem_dependentPairs.1 hp
  simp only [mem_sortedSet]
  exact ⟨List.mem_map_of_mem ha, List.mem_map_of_mem hb⟩

theorem mem_components (h : PartOf obs part) {g : List String} :
    g ∈ partitionComponents part (comparisons (obs.map (·.signature))) ↔
      ∃ o ∈ part, g = componentOf obs part o := by
  rw [partitionComponents_eq, DisjointSets.mem_components h.pairs_mem_ids]
  constructor
  · rintro ⟨x, hx, rfl⟩
    obtain ⟨o, ho, rfl⟩ := List.mem_map.1 (mem_sortedSet.1 hx)
    exact ⟨o, ho, rfl⟩
  · rintro ⟨o, ho, rfl⟩
    exact ⟨o.id, mem_sortedSet.2 (List.mem_map_of_mem ho), rfl⟩

theorem class_of_isolated (h : PartOf obs part) {o : Observation} (ho : o ∈ part)
    (hiso : ∀ x ∈ part, x.id ≠ o.id → pairStatus o x ≠ .dependent) :
    componentOf obs part o = [o.id] := by
  have hedges : ∀ p ∈ dependentPairs part (comparisons (obs.map (·.signature))),
      p.1 ≠ o.id ∧ p.2 ≠ o.id := by
    intro p hp
    obtain ⟨a, ha, b, hb, hab, hdep, rfl⟩ := h.mem_dependentPairs.1 hp
    constructor
    · intro hao
      obtain rfl := h.ids_inj (h.mem ha) (h.mem ho) hao
      exact hiso b hb hab.ne' hdep
    · intro hbo
      obtain rfl := h.ids_inj (h.mem hb) (h.mem ho) hbo
      rw [pairStatus_comm hab.ne] at hdep
      exact hiso a ha hab.ne hdep
  have hfilter : componentOf obs part o = (sortedSet (part.map (·.id))).filter (· = o.id) := by
    apply List.filter_congr
    intro y _
    have hiff : DisjointSets.Linked
        (dependentPairs part (comparisons (obs.map (·.signature)))) o.id y ↔ y = o.id := by
      constructor
      · exact DisjointSets.linked_isolated hedges
      · rintro rfl
        exact DisjointSets.linked_refl _ _
    simp [hiff]
  have hmem : o.id ∈ sortedSet (part.map (·.id)) := mem_sortedSet.2 (List.mem_map_of_mem ho)
  rw [hfilter, List.filter_eq, List.count_eq_one_of_mem (sortedSet_nodup _) hmem]
  rfl

/-- A class of one id has no dependent pair. -/
theorem not_dependent_of_class (h : PartOf obs part) {o : Observation} (ho : o ∈ part)
    (hlen : (componentOf obs part o).length ≤ 1) :
    ∀ x ∈ part, x.id ≠ o.id → pairStatus o x ≠ .dependent := by
  intro x hx hne hdep
  have hlink : DisjointSets.Linked
      (dependentPairs part (comparisons (obs.map (·.signature)))) o.id x.id := by
    rcases lt_or_gt_of_ne hne with hlt | hlt
    · apply Relation.EqvGen.symm
      apply Relation.EqvGen.rel
      rw [pairStatus_comm hne.symm] at hdep
      exact h.mem_dependentPairs.2 ⟨x, hx, o, ho, hlt, hdep, rfl⟩
    · apply Relation.EqvGen.rel
      exact h.mem_dependentPairs.2 ⟨o, ho, x, hx, hlt, hdep, rfl⟩
  have hmemo := self_mem_componentOf obs ho
  have hmemx : x.id ∈ componentOf obs part o :=
    DisjointSets.mem_classOf.2 ⟨mem_sortedSet.2 (List.mem_map_of_mem hx), hlink⟩
  obtain ⟨y, hy⟩ := List.length_eq_one_iff.1
    (Nat.le_antisymm hlen (List.length_pos_of_mem hmemo))
  rw [hy, List.mem_singleton] at hmemo hmemx
  exact hne (hmemx.trans hmemo.symm)

theorem componentOf_eq_singleton (h : PartOf obs part) {o : Observation} (ho : o ∈ part) :
    componentOf obs part o = [o.id] ↔ ∀ x ∈ part, x.id ≠ o.id → pairStatus o x ≠ .dependent := by
  constructor
  · intro heq
    exact h.not_dependent_of_class ho (by simp [heq])
  · exact h.class_of_isolated ho

end PartOf

/-! ## Units -/

/-- The unit of an episode that stands for itself. -/
def soloUnit (part : List Observation) (o : Observation) : EvidenceUnit :=
  let item := eligibility (activeScopeConditions part) o
  { episodeIds := [o.id]
    direction := item.direction
    tier := item.tier
    independence := .independent
    reasonCodes := sortedSet item.reasonCodes }

theorem mergeDirections_single (d : EvidenceUnitDirection) : mergeDirections [d] = d := by
  cases d <;> rfl

theorem mergeTiers_single (t : EvidenceContributionTier) : mergeTiers [t] = t := by
  cases t <;> rfl

theorem mem_units {part : List Observation} {cs : List ExperienceComparison} {u : EvidenceUnit} :
    u ∈ partitionUnits part cs ↔
      ∃ g ∈ partitionComponents part cs,
        evidenceUnit (eligibilityById part) (partitionComparisons part cs) g = some u := by
  rw [partitionUnits, buildEvidenceUnits, List.mem_filterMap]

theorem evidenceUnit_ids {f : String → Option Eligibility} {cs : List ExperienceComparison}
    {g : List String} {u : EvidenceUnit} (hu : evidenceUnit f cs g = some u) :
    u.episodeIds = g := by
  simp only [evidenceUnit] at hu
  split at hu
  · cases hu
  · cases hu
    rfl

namespace PartOf
variable {obs part : List Observation}

/-- The comparisons of an isolated episode are all independent, and conversely. -/
theorem componentIndependence_eq (h : PartOf obs part) {o : Observation} (ho : o ∈ part)
    (hsingle : componentOf obs part o = [o.id]) :
    componentIndependence [o.id] (partitionComparisons part (comparisons (obs.map (·.signature))))
      = .independent ↔ Isolated part o := by
  have hdep := (h.componentOf_eq_singleton ho).1 hsingle
  -- the statuses the source looks at are those of the pairs with this episode
  have hstatus : ∀ s, s ∈ ((partitionComparisons part (comparisons (obs.map (·.signature)))).filter
      fun c => [o.id].head? = some c.leftEpisodeId ∨ [o.id].head? = some c.rightEpisodeId).map
        (·.independence) ↔ ∃ x ∈ part, x.id ≠ o.id ∧ pairStatus o x = s := by
    intro s
    simp only [List.mem_map, List.mem_filter, h.mem_partitionComparisons, List.head?_cons,
      Option.some_inj, decide_eq_true_eq]
    constructor
    · rintro ⟨c, ⟨⟨a, ha, b, hb, hab, rfl⟩, hid⟩, rfl⟩
      have heq := compareSignatures_ids hab
      rw [heq.1, heq.2] at hid
      rcases hid with hid | hid
      · obtain rfl := h.ids_inj (h.mem ho) (h.mem ha) hid
        exact ⟨b, hb, hab.ne', rfl⟩
      · obtain rfl := h.ids_inj (h.mem ho) (h.mem hb) hid
        exact ⟨a, ha, hab.ne, pairStatus_comm hab.ne'⟩
    · rintro ⟨x, hx, hne, rfl⟩
      rcases lt_or_gt_of_ne hne with hlt | hlt
      · have heq := compareSignatures_ids hlt
        refine ⟨_, ⟨⟨x, hx, o, ho, hlt, rfl⟩, Or.inr heq.2.symm⟩, ?_⟩
        exact pairStatus_comm hne
      · have heq := compareSignatures_ids hlt
        exact ⟨_, ⟨⟨o, ho, x, hx, hlt, rfl⟩, Or.inl heq.1.symm⟩, rfl⟩
  have hlen : ¬1 < [o.id].length := by simp
  simp only [componentIndependence, if_neg hlen, hstatus]
  constructor
  · intro hind x hx hne
    have hnot := hdep x hx hne
    cases hs : pairStatus o x with
    | independent => rfl
    | dependent => exact absurd hs hnot
    | partiallyIndependent => simp [if_pos (show ∃ y ∈ part, y.id ≠ o.id ∧
        pairStatus o y = .partiallyIndependent from ⟨x, hx, hne, hs⟩)] at hind
    | indeterminate =>
      have hex : ∃ y ∈ part, y.id ≠ o.id ∧ pairStatus o y = .indeterminate := ⟨x, hx, hne, hs⟩
      rw [if_pos hex] at hind
      split at hind <;> cases hind
  · intro hiso
    have hnone : ∀ s, s ≠ IndependenceStatus.independent →
        ¬∃ y ∈ part, y.id ≠ o.id ∧ pairStatus o y = s := by
      rintro s hs ⟨y, hy, hne, rfl⟩
      exact hs (hiso y hy hne)
    rw [if_neg (hnone _ (by simp)), if_neg (hnone _ (by simp))]

theorem isolated_single (h : PartOf obs part) {o : Observation} (ho : o ∈ part)
    (hiso : Isolated part o) : componentOf obs part o = [o.id] := by
  apply (h.componentOf_eq_singleton ho).2
  intro x hx hne
  rw [hiso x hx hne]
  simp

theorem evidenceUnit_single (h : PartOf obs part) {o : Observation} (ho : o ∈ part)
    (cs : List ExperienceComparison) (hc : componentIndependence [o.id] cs = .independent) :
    evidenceUnit (eligibilityById part) cs [o.id] =
      if (eligibility (activeScopeConditions part) o).tier = .ineligible then none
      else some (soloUnit part o) := by
  have hitems : [o.id].filterMap (eligibilityById part) =
      [eligibility (activeScopeConditions part) o] := by
    simp [h.eligibilityById_eq ho]
  simp only [evidenceUnit, hitems, hc]
  by_cases ht : (eligibility (activeScopeConditions part) o).tier = .ineligible
  · simp [ht]
  · simp [ht, soloUnit, mergeDirections_single, mergeTiers_single]

/-- An independent unit is one episode that is independent of all others. -/
theorem unit_independent (h : PartOf obs part) {u : EvidenceUnit}
    (hu : u ∈ partitionUnits part (comparisons (obs.map (·.signature))))
    (hind : u.independence = .independent) :
    ∃ o ∈ part, Isolated part o ∧ u = soloUnit part o := by
  obtain ⟨g, hg, hunit⟩ := mem_units.1 hu
  obtain ⟨o, ho, rfl⟩ := h.mem_components.1 hg
  have hcomp : componentIndependence (componentOf obs part o)
      (partitionComparisons part (comparisons (obs.map (·.signature)))) = .independent := by
    simp only [evidenceUnit] at hunit
    split at hunit
    · cases hunit
    · cases hunit
      exact hind
  have hlen : (componentOf obs part o).length ≤ 1 := by
    by_contra hlen
    rw [componentIndependence, if_pos (by omega)] at hcomp
    cases hcomp
  have hsingle := (h.componentOf_eq_singleton ho).2 (h.not_dependent_of_class ho hlen)
  rw [hsingle] at hcomp hunit
  have hiso := (h.componentIndependence_eq ho hsingle).1 hcomp
  rw [h.evidenceUnit_single ho _ hcomp] at hunit
  split at hunit
  · cases hunit
  · exact ⟨o, ho, hiso, by simpa using hunit.symm⟩

/-- An isolated episode that is eligible is a unit of its own. -/
theorem soloUnit_mem (h : PartOf obs part) {o : Observation} (ho : o ∈ part)
    (hiso : Isolated part o)
    (ht : (eligibility (activeScopeConditions part) o).tier ≠ .ineligible) :
    soloUnit part o ∈ partitionUnits part (comparisons (obs.map (·.signature))) := by
  have hsingle := h.isolated_single ho hiso
  refine mem_units.2 ⟨[o.id], h.mem_components.2 ⟨o, ho, hsingle.symm⟩, ?_⟩
  rw [h.evidenceUnit_single ho _ ((h.componentIndependence_eq ho hsingle).2 hiso), if_neg ht]

/-- No unit is counted twice. -/
theorem units_nodup (h : PartOf obs part) :
    (partitionUnits part (comparisons (obs.map (·.signature)))).Nodup := by
  have hcomps : (partitionComponents part (comparisons (obs.map (·.signature)))).Nodup := by
    rw [partitionComponents_eq]
    exact DisjointSets.components_nodup h.pairs_mem_ids
  refine hcomps.filterMap ?_
  intro g g' u hg hg'
  rw [← evidenceUnit_ids hg, ← evidenceUnit_ids hg']

end PartOf

end Ajenda.Experience
