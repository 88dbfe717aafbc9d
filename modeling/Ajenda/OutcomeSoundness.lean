import Ajenda.OutcomeEvaluation

/-!
# Soundness of an achieved outcome

What an outcome reported as achieved says of the KPIs of the goal. The pairs are made by id over
all goals, so the report is sound exactly when the goal's own KPIs, in every pairing of those with
one id, bear it out.
-/
namespace Ajenda.Outcome
open GoalProgress (Kpi KpiDirection evalById)
open KpiAttainment (Arithmetic evaluateKpi)
open GoalEvaluation (Goal ProgressGap Reached IsRequired evidenceGap goalScoped status_achieved
  mem_requiredPairs goalSemanticSignature_scoped evaluateGoalProgress_exists)
open Experience (CaseFolding)

section Pairs
variable {A : Arithmetic} {b o k : Kpi} {bs os ks picked : List Kpi} {id : String}

/-- The pair has one definition, both values and a target. -/
def Measured (b o : Kpi) : Prop :=
  SameDefinition b o ∧ b.currentValue ≠ none ∧ o.currentValue ≠ none ∧ targetOf b o ≠ none

/-- The observed value reaches the target of the pair. -/
def ReachesTarget (A : Arithmetic) (b o : Kpi) : Prop :=
  ∃ before ∈ b.currentValue, ∃ after ∈ o.currentValue, ∃ target ∈ targetOf b o,
    (evaluateKpi A (observedForEval o before after target)).targetReached = some true

theorem movementOf_measured (direction : KpiDirection) (change previousGap remainingGap : ℚ) :
    (movementOf direction change previousGap remainingGap).1 ≠ .insufficientData ∧
      (movementOf direction change previousGap remainingGap).1 ≠ .targetReached := by
  unfold movementOf movement
  cases direction <;> simp only <;> split_ifs <;> simp

theorem delta_required : (kpiOutcomeDelta A b o).required = (b.required || o.required) := by
  by_cases hdefinition : SameDefinition b o
  · cases hb : b.currentValue <;> cases ho : o.currentValue <;> cases ht : targetOf b o <;>
      simp [kpiOutcomeDelta, hdefinition, hb, ho, ht]
  · simp [kpiOutcomeDelta, hdefinition]

theorem delta_of_measured {before after target : ℚ} (hdefinition : SameDefinition b o)
    (hbefore : b.currentValue = some before) (hafter : o.currentValue = some after)
    (htarget : targetOf b o = some target) :
    (kpiOutcomeDelta A b o).directionAssessment ≠ .insufficientData ∧
      ((kpiOutcomeDelta A b o).directionAssessment = .targetReached ↔
        (evaluateKpi A (observedForEval o before after target)).targetReached = some true) := by
  simp only [kpiOutcomeDelta, hdefinition, not_true_eq_false, if_false, hbefore, hafter, htarget]
  split_ifs with hreached
  · exact ⟨by simp, iff_of_true rfl (by simpa using hreached)⟩
  · simp only [movementOf_measured, ne_eq, not_false_eq_true, true_and, false_iff]
    simpa using hreached

theorem delta_measured : (kpiOutcomeDelta A b o).measured = true ↔ Measured b o := by
  by_cases hdefinition : SameDefinition b o
  · cases hb : b.currentValue with
    | none => simp [Measured, KpiOutcomeDelta.measured, kpiOutcomeDelta, hdefinition, hb]
    | some before =>
      cases ho : o.currentValue with
      | none => simp [Measured, KpiOutcomeDelta.measured, kpiOutcomeDelta, hdefinition, hb, ho]
      | some after =>
        cases ht : targetOf b o with
        | none => simp [Measured, KpiOutcomeDelta.measured, kpiOutcomeDelta, hdefinition, hb, ho, ht]
        | some target =>
          simp [Measured, KpiOutcomeDelta.measured, hdefinition, hb, ho, ht,
            (delta_of_measured (A := A) hdefinition hb ho ht).1]
  · simp [Measured, KpiOutcomeDelta.measured, kpiOutcomeDelta, hdefinition]

theorem delta_reached (h : Measured b o) :
    (kpiOutcomeDelta A b o).directionAssessment = .targetReached ↔ ReachesTarget A b o := by
  obtain ⟨hdefinition, hbefore, hafter, htarget⟩ := h
  obtain ⟨before, hbefore⟩ := Option.ne_none_iff_exists'.1 hbefore
  obtain ⟨after, hafter⟩ := Option.ne_none_iff_exists'.1 hafter
  obtain ⟨target, htarget⟩ := Option.ne_none_iff_exists'.1 htarget
  rw [(delta_of_measured hdefinition hbefore hafter htarget).2]
  simp [ReachesTarget, hbefore, hafter, htarget]

/-- When the deltas give an achieved outcome. -/
theorem aggregateStatus_achieved {deltas : List KpiOutcomeDelta} {gaps : List ProgressGap} :
    (aggregateStatus deltas gaps).status = .achieved ↔ gaps = [] ∧
      (∃ d ∈ deltas, d.measured = true) ∧ (∀ d ∈ deltas, d.required = true → d.measured = true) ∧
        ∀ d ∈ deltas, d.measured = true → d.directionAssessment = .targetReached := by
  have hmeasured : ∀ measurable : List KpiOutcomeDelta,
      (measuredStatus measurable gaps).status = .achieved ↔
        gaps = [] ∧ ∀ d ∈ measurable, d.directionAssessment = .targetReached := by
    intro measurable
    unfold measuredStatus
    simp only
    by_cases hall : ∀ d ∈ measurable, d.directionAssessment = .targetReached
    · rw [if_pos (by simpa using hall)]
      split_ifs with hgaps
      · simp [hgaps]
      · exact iff_of_true rfl ⟨not_not.1 hgaps, hall⟩
    · rw [if_neg (by simpa using hall)]
      simp only [hall, and_false, iff_false]
      split_ifs <;> simp
  unfold aggregateStatus
  simp only
  by_cases hnil : deltas = []
  · simp only [hnil, true_and, if_true, List.not_mem_nil, false_and, exists_false, and_false,
      iff_false]
    split_ifs <;> simp
  rw [if_neg fun h => hnil h.1, if_neg hnil]
  by_cases hunknown : deltas.filter (fun d => d.required && !d.measured) = []
  · have hrequired : ∀ d ∈ deltas, d.required = true → d.measured = true := by
      intro d hd hreq
      simpa [hreq] using List.filter_eq_nil_iff.1 hunknown d hd
    rw [if_neg (not_not.2 hunknown)]
    by_cases hmeasurable : deltas.filter (·.measured) = []
    · rw [if_pos hmeasurable]
      simp only [reduceCtorEq, false_iff, not_and]
      rintro - ⟨d, hd, hm⟩
      exact absurd hm (List.filter_eq_nil_iff.1 hmeasurable d hd)
    · obtain ⟨d, hd⟩ := List.exists_mem_of_ne_nil _ hmeasurable
      obtain ⟨hd, hm⟩ := List.mem_filter.1 hd
      rw [if_neg hmeasurable, hmeasured]
      simp only [List.mem_filter, and_imp]
      exact and_congr_right fun _ => ⟨fun hall => ⟨⟨d, hd, hm⟩, hrequired, hall⟩, fun h => h.2.2⟩
  · obtain ⟨d, hd⟩ := List.exists_mem_of_ne_nil _ hunknown
    obtain ⟨hd, hunmeasured⟩ := List.mem_filter.1 hd
    rw [Bool.and_eq_true, Bool.not_eq_true'] at hunmeasured
    rw [if_pos hunknown]
    have hfalse : ¬∀ d ∈ deltas, d.required = true → d.measured = true := fun hall => by
      simpa [hunmeasured.2] using hall d hd hunmeasured.1
    simp only [hfalse, false_and, and_false, iff_false]
    split_ifs <;> simp

theorem lastById_some (h : lastById os id = some o) : o ∈ os ∧ o.kpiId = id := by
  refine ⟨List.mem_reverse.1 (List.mem_of_find?_eq_some h), ?_⟩
  simpa using List.find?_some h

theorem lastById_isSome : (lastById os id).isSome = true ↔ ∃ o ∈ os, o.kpiId = id := by
  simp [lastById, List.find?_isSome]

theorem mem_pairKpis : (b, o) ∈ pairKpis bs os ↔ b ∈ bs ∧ lastById os b.kpiId = some o := by
  simp only [pairKpis, List.mem_filterMap, Option.map_eq_some_iff, Prod.mk.injEq]
  constructor
  · rintro ⟨b', hb', o', ho', rfl, rfl⟩
    exact ⟨hb', ho'⟩
  · rintro ⟨hb, ho⟩
    exact ⟨b, hb, o, ho, rfl, rfl⟩

theorem mem_unmatched : k ∈ unmatched ks os ↔ k ∈ ks ∧ ∀ o ∈ os, o.kpiId ≠ k.kpiId := by
  simp [unmatched]

/-- The KPIs of two lists give an achieved outcome. -/
structure Reported (A : Arithmetic) (bs os : List Kpi) : Prop where
  measured : ∃ b o, (b, o) ∈ pairKpis bs os ∧ Measured b o
  required : ∀ b o, (b, o) ∈ pairKpis bs os → b.required = true ∨ o.required = true → Measured b o
  baseline : ∀ b ∈ bs, b.required = true → ∃ o ∈ os, o.kpiId = b.kpiId
  observed : ∀ o ∈ os, o.required = true → ∃ b ∈ bs, b.kpiId = o.kpiId
  reached : ∀ b o, (b, o) ∈ pairKpis bs os → Measured b o → ReachesTarget A b o

theorem mem_kpiDeltas {d : KpiOutcomeDelta} : d ∈ kpiDeltas A bs os ↔
    (∃ b o, (b, o) ∈ pairKpis bs os ∧ kpiOutcomeDelta A b o = d) ∨
      (∃ b ∈ unmatched bs os, observedMissing b = d) ∨
        ∃ o ∈ unmatched os bs, baselineMissing o = d := by
  simp only [kpiDeltas, List.mem_append, List.mem_map, Prod.exists, or_assoc]

theorem aggregate_reported {gaps : List ProgressGap} :
    (aggregateStatus (kpiDeltas A bs os) gaps).status = .achieved ↔ gaps = [] ∧ Reported A bs os := by
  rw [aggregateStatus_achieved]
  refine and_congr_right fun _ => ?_
  constructor
  · rintro ⟨⟨d, hd, hm⟩, hrequired, hreached⟩
    refine ⟨?_, fun b o hbo hreq => ?_, fun b hb hreq => ?_, fun o ho hreq => ?_,
      fun b o hbo hmeasured => ?_⟩
    · rcases mem_kpiDeltas.1 hd with ⟨b, o, hbo, rfl⟩ | ⟨b, -, rfl⟩ | ⟨o, -, rfl⟩
      · exact ⟨b, o, hbo, delta_measured.1 hm⟩
      · cases hm
      · cases hm
    · refine delta_measured.1 (hrequired _ (mem_kpiDeltas.2 (.inl ⟨b, o, hbo, rfl⟩)) ?_)
      rw [delta_required, Bool.or_eq_true]
      exact hreq
    · by_contra hnone
      push Not at hnone
      have hmem : observedMissing b ∈ kpiDeltas A bs os :=
        mem_kpiDeltas.2 (.inr (.inl ⟨b, mem_unmatched.2 ⟨hb, hnone⟩, rfl⟩))
      exact absurd (hrequired _ hmem hreq) (by simp [observedMissing, KpiOutcomeDelta.measured])
    · by_contra hnone
      push Not at hnone
      have hmem : baselineMissing o ∈ kpiDeltas A bs os :=
        mem_kpiDeltas.2 (.inr (.inr ⟨o, mem_unmatched.2 ⟨ho, hnone⟩, rfl⟩))
      exact absurd (hrequired _ hmem hreq) (by simp [baselineMissing, KpiOutcomeDelta.measured])
    · exact (delta_reached hmeasured).1
        (hreached _ (mem_kpiDeltas.2 (.inl ⟨b, o, hbo, rfl⟩)) (delta_measured.2 hmeasured))
  · intro h
    refine ⟨?_, fun d hd hreq => ?_, fun d hd hm => ?_⟩
    · obtain ⟨b, o, hbo, hm⟩ := h.measured
      exact ⟨_, mem_kpiDeltas.2 (.inl ⟨b, o, hbo, rfl⟩), delta_measured.2 hm⟩
    · rcases mem_kpiDeltas.1 hd with ⟨b, o, hbo, rfl⟩ | ⟨b, hb, rfl⟩ | ⟨o, ho, rfl⟩
      · rw [delta_required, Bool.or_eq_true] at hreq
        exact delta_measured.2 (h.required b o hbo hreq)
      · obtain ⟨hb, hnone⟩ := mem_unmatched.1 hb
        obtain ⟨o, ho, hid⟩ := h.baseline b hb hreq
        exact absurd hid (hnone o ho)
      · obtain ⟨ho, hnone⟩ := mem_unmatched.1 ho
        obtain ⟨b, hb, hid⟩ := h.observed o ho hreq
        exact absurd hid (hnone b hb)
    · rcases mem_kpiDeltas.1 hd with ⟨b, o, hbo, rfl⟩ | ⟨b, -, rfl⟩ | ⟨o, -, rfl⟩
      · have hmeasured := delta_measured.1 hm
        exact (delta_reached hmeasured).2 (h.reached b o hbo hmeasured)
      · cases hm
      · cases hm

end Pairs

section Selections
variable {A : Arithmetic} {b o k : Kpi} {bs os kpis picked : List Kpi}

/-- Some of the KPIs are picked, of each id at least one. -/
structure Selection (kpis picked : List Kpi) : Prop where
  sub : ∀ k ∈ picked, k ∈ kpis
  covers : ∀ k ∈ kpis, ∃ j ∈ picked, j.kpiId = k.kpiId

/-- Of each id the KPI chosen for it, or all. -/
def narrow (kpis : List Kpi) (chosen : String → Option Kpi) : List Kpi :=
  kpis.filter fun k => ∀ j ∈ chosen k.kpiId, k = j

theorem mem_narrow {chosen : String → Option Kpi} :
    k ∈ narrow kpis chosen ↔ k ∈ kpis ∧ ∀ j, chosen k.kpiId = some j → k = j := by
  simp [narrow]

theorem narrow_selection {chosen : String → Option Kpi}
    (h : ∀ id j, chosen id = some j → j ∈ kpis ∧ j.kpiId = id) :
    Selection kpis (narrow kpis chosen) where
  sub _ hk := (mem_narrow.1 hk).1
  covers k hk := by
    cases hchosen : chosen k.kpiId with
    | none => exact ⟨k, mem_narrow.2 ⟨hk, by simp [hchosen]⟩, rfl⟩
    | some j =>
      obtain ⟨hj, hid⟩ := h _ _ hchosen
      refine ⟨j, mem_narrow.2 ⟨hj, fun i hi => ?_⟩, hid⟩
      rw [hid, hchosen] at hi
      exact Option.some.inj hi

theorem selection_refl (kpis : List Kpi) : Selection kpis kpis :=
  ⟨fun _ hk => hk, fun k hk => ⟨k, hk, rfl⟩⟩

/-- Every pairing of the KPIs of one id bears an achieved outcome out. -/
structure Goalwise (A : Arithmetic) (bs os : List Kpi) : Prop where
  measured : ∃ b ∈ bs, ∃ o ∈ os, o.kpiId = b.kpiId ∧
    ∀ b' ∈ bs, ∀ o' ∈ os, b'.kpiId = b.kpiId → o'.kpiId = b.kpiId → Measured b' o'
  required : ∀ b ∈ bs, ∀ o ∈ os, o.kpiId = b.kpiId →
    b.required = true ∨ o.required = true → Measured b o
  baseline : ∀ b ∈ bs, b.required = true → ∃ o ∈ os, o.kpiId = b.kpiId
  observed : ∀ o ∈ os, o.required = true → ∃ b ∈ bs, b.kpiId = o.kpiId
  reached : ∀ b ∈ bs, ∀ o ∈ os, o.kpiId = b.kpiId → Measured b o → ReachesTarget A b o

theorem pair_of_mem (hb : b ∈ bs) (ho : o ∈ os) (hid : o.kpiId = b.kpiId) :
    ∃ o', (b, o') ∈ pairKpis bs os := by
  obtain ⟨o', ho'⟩ := Option.isSome_iff_exists.1 (lastById_isSome.2 ⟨o, ho, hid⟩)
  exact ⟨o', mem_pairKpis.2 ⟨hb, ho'⟩⟩

theorem mem_of_pair (h : (b, o) ∈ pairKpis bs os) : b ∈ bs ∧ o ∈ os ∧ o.kpiId = b.kpiId := by
  obtain ⟨hb, ho⟩ := mem_pairKpis.1 h
  exact ⟨hb, lastById_some ho⟩

theorem Goalwise.reported (h : Goalwise A bs os) {bs' os' : List Kpi} (hbs : Selection bs bs')
    (hos : Selection os os') : Reported A bs' os' where
  measured := by
    obtain ⟨b, hb, o, ho, hid, hall⟩ := h.measured
    obtain ⟨b', hb', hbid⟩ := hbs.covers b hb
    obtain ⟨o', ho', hoid⟩ := hos.covers o ho
    obtain ⟨last, hlast⟩ := pair_of_mem hb' ho' (hoid.trans (hid.trans hbid.symm))
    obtain ⟨-, hmem, hlastId⟩ := mem_of_pair hlast
    exact ⟨b', last, hlast, hall b' (hbs.sub b' hb') last (hos.sub last hmem) hbid
      (hlastId.trans hbid)⟩
  required b o hbo := by
    obtain ⟨hb, ho, hid⟩ := mem_of_pair hbo
    exact h.required b (hbs.sub b hb) o (hos.sub o ho) hid
  baseline b hb hreq := by
    obtain ⟨o, ho, hid⟩ := h.baseline b (hbs.sub b hb) hreq
    obtain ⟨o', ho', hid'⟩ := hos.covers o ho
    exact ⟨o', ho', hid'.trans hid⟩
  observed o ho hreq := by
    obtain ⟨b, hb, hid⟩ := h.observed o (hos.sub o ho) hreq
    obtain ⟨b', hb', hid'⟩ := hbs.covers b hb
    exact ⟨b', hb', hid'.trans hid⟩
  reached b o hbo := by
    obtain ⟨hb, ho, hid⟩ := mem_of_pair hbo
    exact h.reached b (hbs.sub b hb) o (hos.sub o ho) hid

/-- Two KPIs of one id are the pair of some selection. -/
theorem exists_selection_pair (hb : b ∈ bs) (ho : o ∈ os) (hid : o.kpiId = b.kpiId) :
    ∃ bs' os', Selection bs bs' ∧ Selection os os' ∧ (b, o) ∈ pairKpis bs' os' := by
  let only (k : Kpi) (id : String) : Option Kpi := if k.kpiId = id then some k else none
  have hselection : ∀ {k kpis}, k ∈ kpis → Selection kpis (narrow kpis (only k)) := by
    intro k kpis hk
    refine narrow_selection fun id j hj => ?_
    obtain ⟨hkid, hj⟩ := Option.ite_none_right_eq_some.1 hj
    cases hj
    exact ⟨hk, hkid⟩
  have hmem : ∀ {k kpis}, k ∈ kpis → k ∈ narrow kpis (only k) := by
    intro k kpis hk
    refine mem_narrow.2 ⟨hk, fun j hj => ?_⟩
    exact Option.some.inj (Option.ite_none_right_eq_some.1 hj).2
  refine ⟨_, _, hselection hb, hselection ho, ?_⟩
  obtain ⟨last, hlast⟩ := pair_of_mem (hmem hb) (hmem ho) hid
  obtain ⟨-, hmemLast, hlastId⟩ := mem_of_pair hlast
  have honly : last = o := by
    refine (mem_narrow.1 hmemLast).2 o ?_
    simp only [only, hlastId, hid, if_true]
  rwa [honly] at hlast

/-- A list of KPIs gives an achieved outcome in every selection exactly when all its pairings bear
it out. -/
theorem goalwise_iff : Goalwise A bs os ↔
    ∀ bs' os', Selection bs bs' → Selection os os' → Reported A bs' os' := by
  refine ⟨fun h bs' os' hbs hos => h.reported hbs hos, fun h => ?_⟩
  have hself := h bs os (selection_refl bs) (selection_refl os)
  refine ⟨?_, fun b hb o ho hid => ?_, hself.baseline, hself.observed, fun b hb o ho hid => ?_⟩
  · by_contra hnone
    push Not at hnone
    -- For each id of both lists one pair that is not measured is kept.
    have hchoice : ∀ id, ∃ pair : Option (Kpi × Kpi),
        (∀ p, pair = some p → p.1 ∈ bs ∧ p.2 ∈ os ∧ p.1.kpiId = id ∧ p.2.kpiId = id ∧
          ¬Measured p.1 p.2) ∧
          (pair = none → ∀ b ∈ bs, ∀ o ∈ os, b.kpiId = id → o.kpiId ≠ id) := by
      intro id
      by_cases hcommon : ∃ b ∈ bs, ∃ o ∈ os, b.kpiId = id ∧ o.kpiId = id
      · obtain ⟨b, hb, o, ho, rfl, hid⟩ := hcommon
        obtain ⟨b', hb', o', ho', hbid, hoid, hnot⟩ := hnone b hb o ho hid
        refine ⟨some (b', o'), ?_, by simp⟩
        rintro p ⟨⟩
        exact ⟨hb', ho', hbid, hoid, hnot⟩
      · push Not at hcommon
        exact ⟨none, by simp, fun _ => hcommon⟩
    choose pair hpair hnopair using hchoice
    have hbs : Selection bs (narrow bs fun id => (pair id).map (·.1)) := by
      refine narrow_selection fun id j hj => ?_
      obtain ⟨p, hp, rfl⟩ := Option.map_eq_some_iff.1 hj
      exact ⟨(hpair id p hp).1, (hpair id p hp).2.2.1⟩
    have hos : Selection os (narrow os fun id => (pair id).map (·.2)) := by
      refine narrow_selection fun id j hj => ?_
      obtain ⟨p, hp, rfl⟩ := Option.map_eq_some_iff.1 hj
      exact ⟨(hpair id p hp).2.1, (hpair id p hp).2.2.2.1⟩
    obtain ⟨b, o, hbo, hmeasured⟩ := (h _ _ hbs hos).measured
    obtain ⟨hb, ho, hid⟩ := mem_of_pair hbo
    obtain ⟨hb, hbonly⟩ := mem_narrow.1 hb
    obtain ⟨ho, hoonly⟩ := mem_narrow.1 ho
    cases hp : pair b.kpiId with
    | none => exact hnopair _ hp b hb o ho rfl hid
    | some p =>
      have hb' : b = p.1 := hbonly p.1 (by simp [hp])
      have ho' : o = p.2 := hoonly p.2 (by simp [hid, hp])
      rw [hb', ho'] at hmeasured
      exact (hpair _ p hp).2.2.2.2 hmeasured
  · obtain ⟨bs', os', hbs, hos, hbo⟩ := exists_selection_pair hb ho hid
    exact (h bs' os' hbs hos).required b o hbo
  · obtain ⟨bs', os', hbs, hos, hbo⟩ := exists_selection_pair hb ho hid
    exact (h bs' os' hbs hos).reached b o hbo

end Selections

section Soundness
variable {V : Type} [DecidableEq V] {A : Arithmetic} {F : CaseFolding} {fresh : FreshOutcome}
  {expectation : OutcomeExpectation V} {observed : ObservedOutcome V} {r : OutcomeRequest}
  {result : OutcomeEvaluation V} {goal : Goal} {bs os : List Kpi}

/-- What the observed goal is evaluated with. -/
def observedRequest (expectation : OutcomeExpectation V) (observed : ObservedOutcome V) :
    GoalEvaluation.Request V where
  currentState := observed.observedSnapshot
  previousState := expectation.baselineSnapshot
  events := observed.events
  evidenceIds := observed.evidenceIds
  missingEvidenceCodes := observed.missingEvidenceCodes

theorem evaluateOutcome_ok (h : evaluateOutcome A F fresh expectation observed r = .ok result) :
    result.evidenceGaps = observed.missingEvidenceCodes.map evidenceGap ∧
      result.status = (aggregateStatus (kpiDeltas A expectation.baselineKpis observed.observedKpis)
        (observed.missingEvidenceCodes.map evidenceGap)).status ∧
      GoalEvaluation.evaluateGoalProgress A fresh.observed expectation.goal
        (observedKpisForEvaluation expectation.goal expectation.baselineKpis observed.observedKpis)
        (observedRequest expectation observed) = .ok result.observedEvaluation := by
  obtain ⟨states, -, h⟩ := Fallible.bind_eq_ok.1 h
  obtain ⟨baselineEvaluation, -, h⟩ := Fallible.bind_eq_ok.1 h
  obtain ⟨observedEvaluation, hobserved, h⟩ := Fallible.bind_eq_ok.1 h
  obtain ⟨signature, -, h⟩ := Fallible.bind_eq_ok.1 h
  cases h
  exact ⟨rfl, rfl, hobserved⟩

/-- The evaluation fails only where the two states cannot be compared. -/
theorem evaluateOutcome_exists :
    (∃ result, evaluateOutcome A F fresh expectation observed r = .ok result) ↔
      ∃ states, outcomeStates expectation observed = .ok states := by
  rw [evaluateOutcome, Fallible.exists_bind_ok]
  refine exists_congr fun states => and_iff_left_of_imp fun hstates => ?_
  obtain ⟨baselineEvaluation, hbaseline⟩ : ∃ e, GoalEvaluation.evaluateGoalProgress A
      fresh.baseline expectation.goal expectation.baselineKpis
      { currentState := expectation.baselineSnapshot } = .ok e :=
    evaluateGoalProgress_exists.2 ⟨none, rfl⟩
  obtain ⟨observedEvaluation, hobserved⟩ : ∃ e, GoalEvaluation.evaluateGoalProgress A
      fresh.observed expectation.goal
      (observedKpisForEvaluation expectation.goal expectation.baselineKpis observed.observedKpis)
      (observedRequest expectation observed) = .ok e :=
    evaluateGoalProgress_exists.2 ⟨states, hstates⟩
  refine Fallible.exists_bind_ok.2 ⟨baselineEvaluation, hbaseline, ?_⟩
  refine Fallible.exists_bind_ok.2 ⟨observedEvaluation, hobserved, ?_⟩
  rw [goalSemanticSignature_scoped]
  exact ⟨_, rfl⟩

theorem status_reported (h : evaluateOutcome A F fresh expectation observed r = .ok result) :
    result.status = .achieved ↔ observed.missingEvidenceCodes = [] ∧
      Reported A expectation.baselineKpis observed.observedKpis := by
  rw [(evaluateOutcome_ok h).2.1, aggregate_reported, List.map_eq_nil_iff]

theorem mem_goalScoped {k : Kpi} {kpis : List Kpi} :
    k ∈ goalScoped goal kpis ↔ k ∈ kpis ∧ k.goalId = goal.goalId := by
  simp [goalScoped]

/-- Where the lists give an achieved outcome nothing is added to the observed KPIs. -/
theorem Reported.observedKpis (h : Reported A bs os) :
    observedKpisForEvaluation goal bs os = os := by
  have hnone : (unmatched bs os).filter (·.required) = [] := by
    refine List.filter_eq_nil_iff.2 fun b hb hreq => ?_
    obtain ⟨hb, hnot⟩ := mem_unmatched.1 hb
    obtain ⟨o, ho, hid⟩ := h.baseline b hb hreq
    exact hnot o ho hid
  rw [observedKpisForEvaluation, hnone, List.map_nil, List.append_nil]

/-- What a reported achievement owes to the KPIs of the goal. -/
structure OutcomeSound (A : Arithmetic) (F : CaseFolding) (fresh : FreshOutcome)
    (expectation : OutcomeExpectation V) (observed : ObservedOutcome V) (r : OutcomeRequest)
    (result : OutcomeEvaluation V) : Prop where
  complete : result.evidenceGaps = []
  embedded : result.observedEvaluation.status = .achieved
  baseline : ∀ b, IsRequired expectation.goal expectation.baselineKpis b →
    ∃ o ∈ observed.observedKpis, o.kpiId = b.kpiId ∧ SameDefinition b o ∧ ReachesTarget A b o
  observation : ∀ o, IsRequired expectation.goal observed.observedKpis o →
    ∃ b ∈ expectation.baselineKpis, b.kpiId = o.kpiId ∧ SameDefinition b o ∧ ReachesTarget A b o
  narrowed : ∀ bs os, Selection (goalScoped expectation.goal expectation.baselineKpis) bs →
    Selection (goalScoped expectation.goal observed.observedKpis) os →
      ∃ result', evaluateOutcome A F fresh { expectation with baselineKpis := bs }
        { observed with observedKpis := os } r = .ok result' ∧ result'.status = .achieved

/-- The KPIs of the goal alone bear an achieved outcome out, in every pairing and with the targets
they were observed with. -/
structure Grounded (A : Arithmetic) (goal : Goal) (bs os : List Kpi) : Prop where
  goalwise : Goalwise A (goalScoped goal bs) (goalScoped goal os)
  stated : ∃ o, IsRequired goal os o
  own : ∀ o, IsRequired goal os o → Reached A (evalById (goalScoped goal os) o)

/-- A reported achievement is sound exactly when the KPIs of the goal alone bear it out. -/
theorem outcomeSound_iff (h : evaluateOutcome A F fresh expectation observed r = .ok result) :
    (result.status = .achieved → OutcomeSound A F fresh expectation observed r result) ↔
      (observed.missingEvidenceCodes = [] →
        Reported A expectation.baselineKpis observed.observedKpis →
          Grounded A expectation.goal expectation.baselineKpis observed.observedKpis) := by
  obtain ⟨hgaps, -, hembedded⟩ := evaluateOutcome_ok h
  rw [status_reported h, and_imp]
  refine forall_congr' fun hcodes => forall_congr' fun hreported => ?_
  have hachieved := status_achieved hembedded
  rw [hreported.observedKpis] at hachieved
  obtain ⟨states, hstates⟩ := evaluateOutcome_exists.1 ⟨_, h⟩
  have hnarrowed : ∀ bs os, (∃ result', evaluateOutcome A F fresh
      { expectation with baselineKpis := bs } { observed with observedKpis := os } r = .ok result' ∧
        result'.status = .achieved) ↔ Reported A bs os := by
    intro bs os
    constructor
    · rintro ⟨result', hresult', hstatus⟩
      exact ((status_reported hresult').1 hstatus).2
    · intro hreported'
      obtain ⟨result', hresult'⟩ : ∃ result', evaluateOutcome A F fresh
          { expectation with baselineKpis := bs } { observed with observedKpis := os } r =
            .ok result' :=
        evaluateOutcome_exists.2 ⟨states, hstates⟩
      exact ⟨result', hresult', (status_reported hresult').2 ⟨hcodes, hreported'⟩⟩
  constructor
  · intro hsound
    obtain ⟨-, hpairs, hreached⟩ := hachieved.1 hsound.embedded
    refine ⟨goalwise_iff.2 fun bs os hbs hos => (hnarrowed bs os).1 (hsound.narrowed bs os hbs hos),
      ?_, fun o ho => hreached _ (mem_requiredPairs.2 ⟨o, ho, rfl⟩)⟩
    obtain ⟨p, hp⟩ := List.exists_mem_of_ne_nil _ hpairs
    obtain ⟨o, ho, -⟩ := mem_requiredPairs.1 hp
    exact ⟨o, ho⟩
  · intro hgrounded
    have hgoalwise := hgrounded.goalwise
    refine ⟨by rw [hgaps, hcodes]; rfl, ?_, fun b hb => ?_, fun o ho => ?_,
      fun bs os hbs hos => (hnarrowed bs os).2 (goalwise_iff.1 hgoalwise bs os hbs hos)⟩
    · obtain ⟨o, ho⟩ := hgrounded.stated
      refine hachieved.2 ⟨hcodes, List.ne_nil_of_mem (mem_requiredPairs.2 ⟨o, ho, rfl⟩), ?_⟩
      rintro p hp
      obtain ⟨o', ho', rfl⟩ := mem_requiredPairs.1 hp
      exact hgrounded.own o' ho'
    · have hscoped := mem_goalScoped.2 ⟨hb.1, hb.2.1⟩
      obtain ⟨o, ho, hid⟩ := hgoalwise.baseline b hscoped hb.2.2
      have hmeasured := hgoalwise.required b hscoped o ho hid (.inl hb.2.2)
      exact ⟨o, (mem_goalScoped.1 ho).1, hid, hmeasured.1,
        hgoalwise.reached b hscoped o ho hid hmeasured⟩
    · have hscoped := mem_goalScoped.2 ⟨ho.1, ho.2.1⟩
      obtain ⟨b, hb, hid⟩ := hgoalwise.observed o hscoped ho.2.2
      have hmeasured := hgoalwise.required b hb o hscoped hid.symm (.inr ho.2.2)
      exact ⟨b, (mem_goalScoped.1 hb).1, hid, hmeasured.1,
        hgoalwise.reached b hb o hscoped hid.symm hmeasured⟩

end Soundness

section Sample
open GoalEvaluation (sampleGoal sampleFresh coverage exactArithmetic)

/-- A KPI of another goal, to be raised to ten. -/
def signups (current : ℚ) : Kpi :=
  { coverage current with
    kpiId := "signups"
    goalId := "growth" }

def sampleExpectation (baseline : List Kpi) : OutcomeExpectation Unit where
  goal := sampleGoal
  baselineKpis := baseline

def sampleObserved (observed : List Kpi) : ObservedOutcome Unit where
  observedKpis := observed
  legacy := by simp

def sampleFreshOutcome : FreshOutcome := ⟨sampleFresh, sampleFresh, "outcome", ⟨0, some 0⟩⟩

theorem sample_outcome (baseline observed : List Kpi) : ∃ result : OutcomeEvaluation Unit,
    evaluateOutcome exactArithmetic Experience.plainFolding sampleFreshOutcome
      (sampleExpectation baseline) (sampleObserved observed) {} = .ok result :=
  evaluateOutcome_exists.2 ⟨none, rfl⟩

/-- An observed KPI to be raised to ten that is at ten or more reaches the target of its pair. -/
theorem raised_reaches {b o : Kpi} {after : ℚ} (h : Measured b o) (hd : o.direction = .increase)
    (ht : o.targetValue = some 10) (ho : o.currentValue = some after) (hle : 10 ≤ after) :
    ReachesTarget exactArithmetic b o := by
  obtain ⟨before, hb⟩ := Option.ne_none_iff_exists'.1 h.2.1
  refine ⟨before, hb, after, ho, 10, by rw [targetOf, ht]; rfl, ?_⟩
  have hreached := KpiAttainment.reached_increase (A := exactArithmetic) (c := after)
    (k := observedForEval o before after 10) rfl hd
  rwa [decide_eq_true hle] at hreached

/-- Lists in which every KPI has a namesake and all pairings reach their targets. -/
theorem goalwise_of_pairs {A : Arithmetic} {bs os : List Kpi} (hne : bs ≠ [])
    (hbs : ∀ b ∈ bs, ∃ o ∈ os, o.kpiId = b.kpiId) (hos : ∀ o ∈ os, ∃ b ∈ bs, b.kpiId = o.kpiId)
    (hpairs : ∀ b ∈ bs, ∀ o ∈ os, o.kpiId = b.kpiId → Measured b o ∧ ReachesTarget A b o) :
    Goalwise A bs os where
  measured := by
    obtain ⟨b, hb⟩ := List.exists_mem_of_ne_nil _ hne
    obtain ⟨o, ho, hid⟩ := hbs b hb
    exact ⟨b, hb, o, ho, hid, fun b' hb' o' ho' hbid hoid =>
      (hpairs b' hb' o' ho' (hoid.trans hbid.symm)).1⟩
  required b hb o ho hid _ := (hpairs b hb o ho hid).1
  baseline b hb _ := hbs b hb
  observed o ho _ := hos o ho
  reached b hb o ho hid _ := (hpairs b hb o ho hid).2

theorem signups_reported : Reported exactArithmetic [signups 3] [signups 10] := by
  refine (goalwise_of_pairs (by simp) (by simp [signups]) (by simp [signups]) ?_).reported
    (selection_refl _) (selection_refl _)
  intro b hb o ho _
  rw [List.mem_singleton.1 hb, List.mem_singleton.1 ho]
  have hmeasured : Measured (signups 3) (signups 10) :=
    ⟨⟨rfl, rfl, rfl⟩, by decide, by decide, by decide⟩
  exact ⟨hmeasured, raised_reaches hmeasured rfl rfl rfl le_rfl⟩

def sampleBaseline : List Kpi := [coverage 3, signups 3, coverage 4]

def sampleObservation : List Kpi := [coverage 10, signups 10, coverage 12]

theorem sample_pair {b o : Kpi} (hb : b ∈ sampleBaseline) (ho : o ∈ sampleObservation)
    (hid : o.kpiId = b.kpiId) : Measured b o ∧ ReachesTarget exactArithmetic b o := by
  have hraised : o.direction = .increase ∧ o.targetValue = some 10 ∧
      ∃ after, o.currentValue = some after ∧ 10 ≤ after := by
    simp only [sampleObservation, List.mem_cons, List.not_mem_nil, or_false] at ho
    rcases ho with rfl | rfl | rfl <;> exact ⟨rfl, rfl, _, rfl, by norm_num⟩
  obtain ⟨hd, ht, after, hafter, hle⟩ := hraised
  have hmeasured : Measured b o := by
    simp only [sampleBaseline, sampleObservation, List.mem_cons, List.not_mem_nil,
      or_false] at hb ho
    rcases hb with rfl | rfl | rfl <;> rcases ho with rfl | rfl | rfl <;>
      first | exact absurd hid (by decide) | exact ⟨⟨rfl, rfl, rfl⟩, by simp [signups, coverage],
        by simp [signups, coverage], by simp [targetOf, signups, coverage]⟩
  exact ⟨hmeasured, raised_reaches hmeasured hd ht hafter hle⟩

theorem sample_grounded :
    Grounded exactArithmetic sampleGoal sampleBaseline sampleObservation := by
  have hown : goalScoped sampleGoal sampleObservation = [coverage 10, coverage 12] := by
    decide +kernel
  have hbefore : goalScoped sampleGoal sampleBaseline = [coverage 3, coverage 4] := by
    decide +kernel
  refine ⟨?_, ⟨coverage 10, by simp [IsRequired, sampleObservation, sampleGoal, coverage]⟩, ?_⟩
  · refine goalwise_of_pairs (by rw [hbefore]; simp) ?_ ?_ fun b hb o ho => ?_
    · rw [hbefore, hown]
      simp [coverage]
    · rw [hbefore, hown]
      simp [coverage]
    · exact sample_pair (mem_goalScoped.1 hb).1 (mem_goalScoped.1 ho).1
  · intro o ho
    have hmem := mem_goalScoped.2 ⟨ho.1, ho.2.1⟩
    rw [hown] at hmem ⊢
    have hlast : evalById [coverage 10, coverage 12] o = coverage 12 := by
      simp only [List.mem_cons, List.not_mem_nil, or_false] at hmem
      rcases hmem with rfl | rfl <;> decide +kernel
    rw [hlast, GoalEvaluation.coverage_reached]
    norm_num

/-- A repeated id and a KPI of another goal, all of which reach their targets. -/
theorem outcomeSound_iff_coverage : ∃ result : OutcomeEvaluation Unit,
    evaluateOutcome exactArithmetic Experience.plainFolding sampleFreshOutcome
      (sampleExpectation sampleBaseline) (sampleObserved sampleObservation) {} = .ok result ∧
        result.status = .achieved ∧
          OutcomeSound exactArithmetic Experience.plainFolding sampleFreshOutcome
            (sampleExpectation sampleBaseline) (sampleObserved sampleObservation) {} result := by
  obtain ⟨result, hresult⟩ := sample_outcome sampleBaseline sampleObservation
  have hachieved : result.status = .achieved := by
    have hgoalwise : Goalwise exactArithmetic sampleBaseline sampleObservation :=
      goalwise_of_pairs (by simp [sampleBaseline])
        (by simp [sampleBaseline, sampleObservation, coverage, signups])
        (by simp [sampleBaseline, sampleObservation, coverage, signups])
        fun b hb o ho => sample_pair hb ho
    exact (status_reported hresult).2
      ⟨rfl, hgoalwise.reported (selection_refl _) (selection_refl _)⟩
  exact ⟨result, hresult, hachieved,
    (outcomeSound_iff hresult).2 (fun _ _ => sample_grounded) hachieved⟩

/-- A KPI of another goal gives an achieved outcome of a goal that has no KPI at all. -/
theorem foreign_kpi_achieves : ∃ result without : OutcomeEvaluation Unit,
    evaluateOutcome exactArithmetic Experience.plainFolding sampleFreshOutcome
      (sampleExpectation [signups 3]) (sampleObserved [signups 10]) {} = .ok result ∧
    evaluateOutcome exactArithmetic Experience.plainFolding sampleFreshOutcome
      (sampleExpectation []) (sampleObserved []) {} = .ok without ∧
    result.status = .achieved ∧ result.observedEvaluation.status ≠ .achieved ∧
      without.status ≠ .achieved := by
  obtain ⟨result, hresult⟩ := sample_outcome [signups 3] [signups 10]
  obtain ⟨without, hwithout⟩ := sample_outcome [] []
  refine ⟨result, without, hresult, hwithout, (status_reported hresult).2 ⟨rfl, signups_reported⟩,
    fun hachieved => ?_, fun hachieved => ?_⟩
  · obtain ⟨-, hpairs, -⟩ := (status_achieved (evaluateOutcome_ok hresult).2.2).1 hachieved
    obtain ⟨p, hp⟩ := List.exists_mem_of_ne_nil _ hpairs
    obtain ⟨k, ⟨hk, hgoal, -⟩, -⟩ := mem_requiredPairs.1 hp
    change k ∈ observedKpisForEvaluation sampleGoal [signups 3] [signups 10] at hk
    rw [signups_reported.observedKpis, List.mem_singleton] at hk
    rw [hk] at hgoal
    exact absurd hgoal (by decide)
  · obtain ⟨b, o, hbo, -⟩ := ((status_reported hwithout).1 hachieved).2.measured
    exact List.not_mem_nil (mem_of_pair hbo).1

end Sample

end Ajenda.Outcome
