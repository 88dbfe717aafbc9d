import Ajenda.DecisionFeasibility
import Mathlib.Algebra.Order.BigOperators.Group.List
import Mathlib.Data.List.TakeWhile

/-!
# Facts in support of a recommendation

What one more known fact for the recommended option does to the ranking: it never lowers the score
of the option and leaves all others alone, but it may lower the confidence that breaks ties.
-/
namespace Ajenda.Decision
open StableRanking (foremost foremost_eq_some foremost_le foremost_map foremost_mono
  foremost_of_mem foremost_own_iff foremost_mem)
open DecimalRounding (roundTo_mono)

/-- A known fact that is linked to one option alone and does not declare it infeasible. -/
structure Supports (lower : String → String) (optionId : String) (f : EvidenceFact) : Prop where
  known : f.status = .known
  linked : f.supportsOptionIds ≠ []
  only : ∀ id ∈ f.supportsOptionIds, id = optionId
  feasible : contains (lower f.claim) "infeasible" = false

section Scores
variable {lower : String → String} {f : EvidenceFact} {before after facts facts' : List EvidenceFact}
  {optionId id cid : String} {criteria : List DecisionCriterion} {c : DecisionCriterion}

theorem linked_of_other (h : Supports lower optionId f) (hid : id ≠ optionId) :
    linked (before ++ f :: after) cid id = linked (before ++ after) cid id := by
  have hnot : id ∉ f.supportsOptionIds := fun hmem => hid (h.only id hmem)
  simp [linked, h.linked, hnot]

theorem scoreOption_of_other (h : Supports lower optionId f) (hid : id ≠ optionId) :
    scoreOption id criteria (before ++ f :: after) = scoreOption id criteria (before ++ after) := by
  have hscore : ∀ c, scoreCriterion (before ++ f :: after) id c =
      scoreCriterion (before ++ after) id c := by
    intro c
    simp only [scoreCriterion, linked_of_other h hid]
  simp only [scoreOption, hscore]

theorem blockingConstraints_supported (h : Supports lower optionId f) (constraints : List String) :
    blockingConstraints lower id constraints (before ++ f :: after) =
      blockingConstraints lower id constraints (before ++ after) := by
  have hnot : declares lower id f = false := by
    simp [declares, h.feasible]
  have hblocked : blockedBy lower id (before ++ f :: after) = blockedBy lower id (before ++ after) := by
    funext constraint
    simp [blockedBy, List.filter_append, hnot]
  rw [blockingConstraints, blockingConstraints, hblocked]

theorem contribution_nonneg (f : EvidenceFact) : 0 ≤ f.contribution := by
  unfold EvidenceFact.contribution
  cases f.status with
  | known => exact f.bounded.1
  | inferred => exact mul_nonneg (by norm_num) f.bounded.1
  | missing => exact le_rfl

theorem scoreCriterion_score : (scoreCriterion facts id c).score =
    ((best (linked facts c.criterionId id)).map EvidenceFact.contribution).getD 0 := by
  unfold scoreCriterion
  cases hbest : best (linked facts c.criterionId id) <;> simp [hbest]

/-- More facts do not lower the score of a criterion. -/
theorem scoreCriterion_mono (hsub : ∀ f ∈ facts, f ∈ facts') :
    (scoreCriterion facts id c).score ≤ (scoreCriterion facts' id c).score := by
  have hlinked : ∀ f ∈ linked facts c.criterionId id, f ∈ linked facts' c.criterionId id := by
    intro f hf
    obtain ⟨hf, hlink⟩ := List.mem_filter.1 hf
    exact List.mem_filter.2 ⟨hsub f hf, hlink⟩
  rw [scoreCriterion_score, scoreCriterion_score]
  cases hbest : best (linked facts c.criterionId id) with
  | none =>
    cases best (linked facts' c.criterionId id) with
    | none => exact le_rfl
    | some g => exact contribution_nonneg g
  | some f =>
    obtain ⟨g, hg⟩ := foremost_of_mem EvidenceFact.contribution
      (hlinked f (foremost_mem _ hbest))
    rw [show best (linked facts' c.criterionId id) = some g from hg]
    exact foremost_mono _ hlinked hbest hg

theorem totalWeight_nonneg (criteria : List DecisionCriterion) : 0 ≤ totalWeight criteria := by
  unfold totalWeight
  simp only
  split_ifs
  · exact Nat.cast_nonneg _
  · refine List.sum_nonneg fun w hw => ?_
    obtain ⟨c, -, rfl⟩ := List.mem_map.1 hw
    exact c.bounded.1.le

/-- More facts do not lower the score of an option. -/
theorem totalScore_mono (hsub : ∀ f ∈ facts, f ∈ facts') :
    (scoreOption id criteria facts).totalScore ≤ (scoreOption id criteria facts').totalScore := by
  unfold scoreOption
  split_ifs
  · exact le_rfl
  · simp only [List.map_map]
    refine roundTo_mono (List.sum_le_sum fun c _ => ?_)
    exact mul_le_mul_of_nonneg_right (scoreCriterion_mono hsub)
      (div_nonneg c.bounded.1.le (totalWeight_nonneg criteria))

end Scores

section Ranking
variable {lower : String → String} {R : Rendering} {payload : DecisionRecommendInput}
  {r o y z : DecisionOption} {row row' : OptionRow}

theorem optionRow_key (h : y.optionId = z.optionId) :
    (optionRow lower payload y).key = (optionRow lower payload z).key := by
  simp only [optionRow, OptionRow.key, h]

theorem key_le_iff : row.key ≤ row'.key ↔ row.feasible < row'.feasible ∨
    row.feasible = row'.feasible ∧ (row.score.totalScore < row'.score.totalScore ∨
      row.score.totalScore = row'.score.totalScore ∧ row.confidence ≤ row'.confidence) := by
  simp [OptionRow.key, Prod.Lex.toLex_le_toLex]

theorem key_lt_iff : row.key < row'.key ↔ row.feasible < row'.feasible ∨
    row.feasible = row'.feasible ∧ (row.score.totalScore < row'.score.totalScore ∨
      row.score.totalScore = row'.score.totalScore ∧ row.confidence < row'.confidence) := by
  simp [OptionRow.key, Prod.Lex.toLex_lt_toLex]

theorem clears_mono (h : row.key ≤ row'.key) (hclears : row.clears = true) :
    row'.clears = true := by
  simp only [OptionRow.clears, decide_eq_true_eq] at hclears ⊢
  obtain ⟨hfeasible, hpositive⟩ := hclears
  rcases key_le_iff.1 h with hlt | ⟨heq, htotal⟩
  · rw [hfeasible] at hlt
    exact absurd hlt (by simp)
  · refine ⟨heq ▸ hfeasible, hpositive.trans_le ?_⟩
    rcases htotal with hlt | ⟨heq, -⟩
    · exact hlt.le
    · exact heq.le

/-- A row that grows stays ahead, unless a tie is lost on its confidence. -/
theorem key_lt_of_grown {other : OptionRow} (hfeasible : row'.feasible = row.feasible)
    (htotal : row.score.totalScore ≤ row'.score.totalScore) (h : other.key < row.key)
    (hgrown : row.score.totalScore < row'.score.totalScore ∨ row.confidence ≤ row'.confidence ∨
      (other.feasible = row.feasible → other.score.totalScore = row.score.totalScore →
        other.confidence < row'.confidence)) : other.key < row'.key := by
  rw [key_lt_iff] at h ⊢
  rw [hfeasible]
  refine h.imp_right fun ⟨heq, hless⟩ => ⟨heq, ?_⟩
  rcases hless with hless | ⟨htie, hconfidence⟩
  · exact .inl (hless.trans_le htotal)
  · rcases hgrown with hmore | hsame | htied
    · exact .inl (htie ▸ hmore)
    · exact (htie ▸ htotal).lt_or_eq.imp_right fun htotal => ⟨htotal, hconfidence.trans_le hsame⟩
    · exact (htie ▸ htotal).lt_or_eq.imp_right fun htotal => ⟨htotal, htied heq htie⟩

theorem key_le_of_grown {other : OptionRow} (hfeasible : row'.feasible = row.feasible)
    (htotal : row.score.totalScore ≤ row'.score.totalScore) (h : other.key ≤ row.key)
    (hgrown : row.score.totalScore < row'.score.totalScore ∨ row.confidence ≤ row'.confidence ∨
      (other.feasible = row.feasible → other.score.totalScore = row.score.totalScore →
        other.confidence ≤ row'.confidence)) : other.key ≤ row'.key := by
  rw [key_le_iff] at h ⊢
  rw [hfeasible]
  refine h.imp_right fun ⟨heq, hless⟩ => ⟨heq, ?_⟩
  rcases hless with hless | ⟨htie, hconfidence⟩
  · exact .inl (hless.trans_le htotal)
  · rcases hgrown with hmore | hsame | htied
    · exact .inl (htie ▸ hmore)
    · exact (htie ▸ htotal).lt_or_eq.imp_right fun htotal => ⟨htotal, hconfidence.trans hsame⟩
    · exact (htie ▸ htotal).lt_or_eq.imp_right fun htotal => ⟨htotal, htied heq htie⟩

theorem optionScores_head : (optionScores lower payload).head? =
    (foremost (fun o => (optionRow lower payload o).key) payload.options).map
      (optionRow lower payload) :=
  foremost_map OptionRow.key (optionRow lower payload) payload.options

/-- Options are recommended where no review of business income is asked for. -/
theorem recommends_iff {optionId : String} : Recommends lower R payload optionId ↔
    payload.reviewsIncome = false ∧
      (recommendOption lower R payload).recommendation = optionId := by
  simp only [Recommends, action_recommendation_iff]
  constructor
  · rintro ⟨r, ⟨hreview, rfl⟩, hid⟩
    exact ⟨hreview, hid⟩
  · rintro ⟨hreview, hid⟩
    exact ⟨_, ⟨hreview, rfl⟩, hid⟩

/-- Where an option clears the bar, the foremost option is recommended. -/
theorem recommendation_eq (hr : r ∈ payload.options)
    (hclears : (optionRow lower payload r).clears = true)
    (ho : foremost (fun o => (optionRow lower payload o).key) payload.options = some o) :
    (recommendOption lower R payload).recommendation = o.optionId := by
  have hfirst := clears_mono
    (foremost_le (fun o => (optionRow lower payload o).key) ho hr) hclears
  simp only [recommendOption, optionScores_head, ho, Option.map_some, hfirst, if_true]
  exact optionRow_id o

variable (payload) in
/-- An option that clears the bar is recommended when no other one is ahead of it. -/
theorem recommendation_own (hr : r ∈ payload.options)
    (hclears : (optionRow lower payload r).clears = true) :
    (recommendOption lower R payload).recommendation = r.optionId ↔
      (∀ y ∈ payload.options.takeWhile (·.optionId ≠ r.optionId),
        (optionRow lower payload y).key < (optionRow lower payload r).key) ∧
      ∀ y ∈ payload.options, y.optionId ≠ r.optionId →
        (optionRow lower payload y).key ≤ (optionRow lower payload r).key := by
  obtain ⟨o, ho⟩ := foremost_of_mem (fun o => (optionRow lower payload o).key) hr
  rw [recommendation_eq hr hclears ho]
  have hiff := foremost_own_iff (fun o => (optionRow lower payload o).key)
    (fun y => decide (y.optionId = r.optionId)) (m := (optionRow lower payload r).key)
    (fun y _ hy => optionRow_key (of_decide_eq_true hy)) hr (by simp) ho
  simpa using hiff

/-- The option of another id is feasible and has the score of `r`. -/
def Tied (lower : String → String) (payload : DecisionRecommendInput) (r y : DecisionOption) :
    Prop :=
  y.optionId ≠ r.optionId ∧ (optionRow lower payload y).feasible = true ∧
    (optionRow lower payload y).score.totalScore = (optionRow lower payload r).score.totalScore

/-- No option tied with `r` comes before it when its confidence is the one given. -/
structure Unrivalled (lower : String → String) (payload : DecisionRecommendInput)
    (r : DecisionOption) (confidence : ℚ) : Prop where
  earlier : ∀ y ∈ payload.options.takeWhile (·.optionId ≠ r.optionId), Tied lower payload r y →
    (optionRow lower payload y).confidence < confidence
  other : ∀ y ∈ payload.options, Tied lower payload r y →
    (optionRow lower payload y).confidence ≤ confidence

/-- The payload with one more fact. -/
def withFact (payload : DecisionRecommendInput) (before after : List EvidenceFact)
    (f : EvidenceFact) : DecisionRecommendInput :=
  { payload with evidence := before ++ f :: after }

variable {before after : List EvidenceFact} {f : EvidenceFact}

theorem optionRow_of_other (h : Supports lower r.optionId f)
    (hevidence : payload.evidence = before ++ after) (hy : y.optionId ≠ r.optionId) :
    optionRow lower (withFact payload before after f) y = optionRow lower payload y := by
  simp only [optionRow, withFact, hevidence, scoreOption_of_other h hy,
    blockingConstraints_supported h]

theorem optionRow_supported (h : Supports lower r.optionId f)
    (hevidence : payload.evidence = before ++ after) :
    (optionRow lower (withFact payload before after f) r).feasible =
      (optionRow lower payload r).feasible ∧
    (optionRow lower payload r).score.totalScore ≤
      (optionRow lower (withFact payload before after f) r).score.totalScore := by
  simp only [optionRow, withFact, hevidence, blockingConstraints_supported h, true_and]
  split_ifs
  · refine totalScore_mono fun g hg => ?_
    rw [List.mem_append] at hg ⊢
    exact hg.imp_right (List.mem_cons_of_mem _)
  · exact le_rfl

/-- One more fact for the recommended option keeps it recommended exactly when it raises its score,
does not lower its confidence or leaves no tied option ahead of it. -/
theorem supported_recommendation_iff (R : Rendering) (hr : r ∈ payload.options)
    (hrecommended : Recommends lower R payload r.optionId)
    (hclears : (optionRow lower payload r).clears = true)
    (hevidence : payload.evidence = before ++ after) (hf : Supports lower r.optionId f) :
    Recommends lower R (withFact payload before after f) r.optionId ↔
      (optionRow lower payload r).score.totalScore <
          (optionRow lower (withFact payload before after f) r).score.totalScore ∨
        (optionRow lower payload r).confidence ≤
          (optionRow lower (withFact payload before after f) r).confidence ∨
        Unrivalled lower payload r
          (optionRow lower (withFact payload before after f) r).confidence := by
  obtain ⟨hfeasible, htotal⟩ := optionRow_supported hf hevidence
  set payload' := withFact payload before after f with hpayload
  have hclears' : (optionRow lower payload' r).clears = true := by
    simp only [OptionRow.clears, decide_eq_true_eq] at hclears ⊢
    exact ⟨hfeasible ▸ hclears.1, hclears.2.trans_le htotal⟩
  obtain ⟨hreview, hrecommended⟩ := recommends_iff.1 hrecommended
  have hreview' : payload'.reviewsIncome = false := hreview
  rw [recommendation_own payload hr hclears] at hrecommended
  rw [recommends_iff, hreview', eq_self_iff_true, true_and,
    recommendation_own payload' hr hclears']
  have hother : ∀ {y : DecisionOption}, y.optionId ≠ r.optionId →
      optionRow lower payload' y = optionRow lower payload y := fun hy =>
    optionRow_of_other hf hevidence hy
  have hearlierId : ∀ y ∈ payload.options.takeWhile (·.optionId ≠ r.optionId),
      y.optionId ≠ r.optionId := fun y hy => by simpa using List.mem_takeWhile_imp hy
  obtain ⟨hearlier, hlater⟩ := hrecommended
  have hfeasible_r : (optionRow lower payload r).feasible = true := by
    simp only [OptionRow.clears, decide_eq_true_eq] at hclears
    exact hclears.1
  constructor
  · rintro ⟨hearlier', hlater'⟩
    refine or_iff_not_imp_left.2 fun hnot => .inr ⟨fun y hy htied => ?_, fun y hy htied => ?_⟩
    · have hlt := hearlier' y hy
      rw [hother htied.1, key_lt_iff, hfeasible, htied.2.1, hfeasible_r, htied.2.2] at hlt
      simpa [hnot, htotal.eq_of_not_lt hnot] using hlt
    · have hle := hlater' y hy htied.1
      rw [hother htied.1, key_le_iff, hfeasible, htied.2.1, hfeasible_r, htied.2.2] at hle
      simpa [hnot, htotal.eq_of_not_lt hnot] using hle
  · intro hkept
    refine ⟨fun y hy => ?_, fun y hy hid => ?_⟩
    · rw [hother (hearlierId y hy)]
      refine key_lt_of_grown hfeasible htotal (hearlier y hy) ?_
      refine hkept.imp_right (Or.imp_right fun hunrivalled heq htie => ?_)
      exact hunrivalled.earlier y hy ⟨hearlierId y hy, heq.trans hfeasible_r, htie⟩
    · rw [hother hid]
      refine key_le_of_grown hfeasible htotal (hlater y hy hid) ?_
      refine hkept.imp_right (Or.imp_right fun hunrivalled heq htie => ?_)
      exact hunrivalled.other y hy ⟨hid, heq.trans hfeasible_r, htie⟩

end Ranking

section Sample

def callOrWrite : List DecisionOption :=
  [callOption,
    { optionId := "write"
      label := "Write"
      normalized := ⟨by decide, by decide⟩ }]

def reach : DecisionCriterion where
  criterionId := "reach"
  label := "Reach"
  normalized := ⟨by decide, by decide⟩
  bounded := by norm_num

/-- A fact on the reach of an option. -/
def reachFact (optionId : String) (status : EvidenceFactStatus) (confidence : ℚ)
    (h : 0 ≤ confidence ∧ confidence ≤ 1) : EvidenceFact where
  evidenceId := "fact"
  claim := "Reaches many"
  status := status
  confidence := confidence
  supportsOptionIds := [optionId]
  supportsCriterionIds := ["reach"]
  normalized := ⟨by decide, by decide⟩
  bounded := h

def inferredFacts : List EvidenceFact :=
  [reachFact "call" .inferred 1 (by norm_num), reachFact "write" .inferred 1 (by norm_num)]

theorem sell_normalized : Normalized "sell" := by decide

/-- Two options with one inferred fact each. -/
def tiedOptions : DecisionRecommendInput where
  goal := "sell"
  options := callOrWrite
  criteria := [reach]
  evidence := inferredFacts
  normalized := sell_normalized

/-- Slightly more than an inferred fact contributes. -/
def knownFact : EvidenceFact := reachFact "call" .known (60001 / 100000) (by norm_num)

theorem knownFact_supports : Supports asciiLower "call" knownFact :=
  ⟨rfl, by decide, by decide, by decide⟩

theorem tied_recommends : Recommends asciiLower plainRendering tiedOptions "call" ∧
    (optionRow asciiLower tiedOptions callOption).clears = true := by
  rw [recommends_iff]
  decide +kernel

theorem supported_recommendation_iff_tied :
    Recommends asciiLower plainRendering (withFact tiedOptions inferredFacts [] knownFact) "call" ↔
      (optionRow asciiLower tiedOptions callOption).score.totalScore <
          (optionRow asciiLower (withFact tiedOptions inferredFacts [] knownFact)
            callOption).score.totalScore ∨
        (optionRow asciiLower tiedOptions callOption).confidence ≤
          (optionRow asciiLower (withFact tiedOptions inferredFacts [] knownFact)
            callOption).confidence ∨
        Unrivalled asciiLower tiedOptions callOption
          (optionRow asciiLower (withFact tiedOptions inferredFacts [] knownFact)
            callOption).confidence :=
  supported_recommendation_iff plainRendering (by simp [tiedOptions, callOrWrite])
    tied_recommends.1 tied_recommends.2 (List.append_nil _).symm knownFact_supports

/-- A known fact for the recommended option makes the other one recommended. -/
theorem support_unseats : Supports asciiLower "call" knownFact ∧
    Recommends asciiLower plainRendering tiedOptions "call" ∧
      (optionRow asciiLower tiedOptions callOption).clears = true ∧
        Recommends asciiLower plainRendering (withFact tiedOptions inferredFacts [] knownFact)
          "write" := by
  refine ⟨knownFact_supports, tied_recommends.1, tied_recommends.2, ?_⟩
  rw [recommends_iff]
  decide +kernel

end Sample

end Ajenda.Decision
