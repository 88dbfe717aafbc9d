import Ajenda.DecisionScoring

/-!
# Feasibility of an option

When the constraints and facts of a decision rule an option out, and when the code says so. A
constraint that holds the ids of several options names the longest of them; which characters end
a name is left open.
-/
namespace Ajenda.Decision
open Ajenda.Runtime (strip)

section Feasibility
variable {lower : String → String} {R : Rendering} {payload : DecisionRecommendInput}
  {boundary : Char → Bool} {ids : List String} {optionId constraint : String} {row : OptionRow}

/-- The words after which a constraint names an option. -/
def blockWords : List String := ["forbid:", "must not "]

/-- The text begins with the id, which ends there. -/
def beginsWith (boundary : Char → Bool) (rest : List Char) (id : String) : Bool :=
  id.toList.isPrefixOf rest && (rest.drop id.toList.length).head?.all boundary

/-- The text begins with the id and with no longer one. -/
def names (lower : String → String) (boundary : Char → Bool) (ids : List String)
    (optionId : String) (rest : List Char) : Bool :=
  beginsWith boundary rest (lower optionId) && ids.all fun other =>
    !beginsWith boundary rest (lower other) ||
      (lower other).toList.length ≤ (lower optionId).toList.length

/-- The constraint forbids the option of this id and not one of a longer id. -/
def forbids (lower : String → String) (boundary : Char → Bool) (ids : List String)
    (optionId constraint : String) : Bool :=
  blockWords.any fun word => (lower (strip constraint)).toList.tails.any fun rest =>
    word.toList.isPrefixOf rest &&
      names lower boundary ids optionId (rest.drop word.toList.length)

/-- The constraint mentions the id after a blocking word. -/
def mentions (lower : String → String) (optionId constraint : String) : Bool :=
  (blockPatterns lower optionId).any (contains (lower (strip constraint)))

/-- What rules an option of the request out. -/
def RuledOut (lower : String → String) (boundary : Char → Bool) (payload : DecisionRecommendInput)
    (optionId : String) : Prop :=
  (∃ c ∈ payload.constraints,
    forbids lower boundary (payload.options.map (·.optionId)) optionId c = true) ∨
    ∃ f ∈ payload.evidence, declares lower optionId f = true

/-- The output reports the option infeasible. -/
def ReportedInfeasible (lower : String → String) (R : Rendering) (payload : DecisionRecommendInput)
    (optionId : String) : Prop :=
  ∃ r, decisionRecommendNextAction lower R payload = .ok (.recommendation r) ∧
    ∃ row ∈ r.optionScores, row.score.optionId = optionId ∧ row.feasible = false

/-- A fact against the option stands beside some constraint, and only constraints that forbid the
option mention it, unless it is ruled out anyway. -/
structure Unconfused (lower : String → String) (boundary : Char → Bool)
    (payload : DecisionRecommendInput) (optionId : String) : Prop where
  heard : (∃ f ∈ payload.evidence, declares lower optionId f = true) →
    ∃ c ∈ payload.constraints, lower (strip c) ≠ ""
  named : (∃ c ∈ payload.constraints, mentions lower optionId c = true) →
    RuledOut lower boundary payload optionId

theorem mentions_of_forbids (h : forbids lower boundary ids optionId constraint = true) :
    mentions lower optionId constraint = true := by
  obtain ⟨word, hword, h⟩ := List.any_eq_true.1 h
  obtain ⟨rest, hrest, hnamed⟩ := List.any_eq_true.1 h
  obtain ⟨hblock, hnames⟩ := Bool.and_eq_true_iff.1 hnamed
  obtain ⟨hbegins, -⟩ := Bool.and_eq_true_iff.1 hnames
  obtain ⟨hid, -⟩ := Bool.and_eq_true_iff.1 hbegins
  -- the word and the id stand one after the other in the text
  obtain ⟨after, hafter⟩ := List.isPrefixOf_iff_prefix.1 hblock
  obtain ⟨last, hlast⟩ := List.isPrefixOf_iff_prefix.1 hid
  rw [← hafter, List.drop_left] at hlast
  have hpattern : (word ++ lower optionId).toList <:+: (lower (strip constraint)).toList := by
    refine List.IsInfix.trans ⟨[], last, ?_⟩ ((List.mem_tails _ _).1 hrest).isInfix
    rw [List.nil_append, String.toList_append, List.append_assoc, hlast, hafter]
  refine List.any_eq_true.2 ⟨word ++ lower optionId, ?_, by simpa [contains] using hpattern⟩
  simp only [blockWords, List.mem_cons, List.not_mem_nil, or_false] at hword
  rcases hword with rfl | rfl
  all_goals simp [blockPatterns]

theorem not_blank_of_mentions (h : mentions lower optionId constraint = true) :
    lower (strip constraint) ≠ "" := by
  intro hblank
  simp [mentions, hblank, blockPatterns, contains] at h

/-- What a single constraint contributes. -/
theorem blockedBy_ne_nil {facts : List EvidenceFact} :
    blockedBy lower optionId facts constraint ≠ [] ↔ mentions lower optionId constraint = true ∨
      lower (strip constraint) ≠ "" ∧ ∃ f ∈ facts, declares lower optionId f = true := by
  by_cases hblank : lower (strip constraint) = ""
  · have hmentions : ¬mentions lower optionId constraint = true := fun h =>
      not_blank_of_mentions h hblank
    simp [blockedBy, hblank, hmentions]
  · simp [blockedBy, hblank, mentions, List.filter_eq_nil_iff, imp_iff_not_or]

theorem blocking_ne_nil {constraints : List String} {facts : List EvidenceFact} :
    blockingConstraints lower optionId constraints facts ≠ [] ↔
      (∃ c ∈ constraints, mentions lower optionId c = true) ∨
        (∃ c ∈ constraints, lower (strip c) ≠ "") ∧
          ∃ f ∈ facts, declares lower optionId f = true := by
  simp only [blockingConstraints, ne_eq, List.flatMap_eq_nil_iff, not_forall, exists_prop]
  simp only [← ne_eq, blockedBy_ne_nil, and_or_left, exists_or, ← and_assoc, exists_and_right]

theorem feasible_eq_false (option : DecisionOption) :
    (optionRow lower payload option).feasible = false ↔
      blockingConstraints lower option.optionId payload.constraints payload.evidence ≠ [] := by
  simp [optionRow]

theorem optionRow_id (option : DecisionOption) :
    (optionRow lower payload option).score.optionId = option.optionId := by
  unfold optionRow scoreOption
  simp only
  split_ifs <;> rfl

theorem recommendOption_scores :
    (recommendOption lower R payload).optionScores = optionScores lower payload := by
  unfold recommendOption
  simp only
  cases hrows : (optionScores lower payload).head? with
  | none => exact (List.head?_eq_none_iff.1 hrows).symm
  | some chosen => dsimp only; split_ifs <;> rfl

theorem mem_optionScores : row ∈ optionScores lower payload ↔
    ∃ option ∈ payload.options, optionRow lower payload option = row := by
  simp [optionScores]

/-- A review of business income recommends nothing; elsewhere the options are looked at. -/
theorem action_recommendation_iff {r : Recommendation} :
    decisionRecommendNextAction lower R payload = .ok (.recommendation r) ↔
      payload.reviewsIncome = false ∧ recommendOption lower R payload = r := by
  unfold decisionRecommendNextAction
  cases payload.reviewsIncome with
  | true =>
    rw [if_pos rfl]
    cases reviewBusinessIncome R payload <;> simp [Except.map]
  | false => simp

theorem not_reported_of_review (h : payload.reviewsIncome = true) :
    ¬ReportedInfeasible lower R payload optionId := by
  rintro ⟨r, hr, -⟩
  rw [action_recommendation_iff, h] at hr
  cases hr.1

/-- Elsewhere an option is reported by its row. -/
theorem reported_iff (h : payload.reviewsIncome = false) {option : DecisionOption}
    (hoption : option ∈ payload.options) :
    ReportedInfeasible lower R payload option.optionId ↔
      (optionRow lower payload option).feasible = false := by
  constructor
  · rintro ⟨r, hr, row, hrow, hid, hfeasible⟩
    obtain ⟨-, rfl⟩ := action_recommendation_iff.1 hr
    rw [recommendOption_scores] at hrow
    obtain ⟨other, -, rfl⟩ := mem_optionScores.1 hrow
    rw [optionRow_id] at hid
    rw [feasible_eq_false, hid] at hfeasible
    exact (feasible_eq_false option).2 hfeasible
  · intro hfeasible
    refine ⟨_, action_recommendation_iff.2 ⟨h, rfl⟩, optionRow lower payload option, ?_,
      optionRow_id option, hfeasible⟩
    rw [recommendOption_scores]
    exact mem_optionScores.2 ⟨option, hoption, rfl⟩

/-- The verdict on one option is right exactly when nothing confuses it. -/
theorem infeasible_iff (option : DecisionOption) :
    ((optionRow lower payload option).feasible = false ↔
      RuledOut lower boundary payload option.optionId) ↔
        Unconfused lower boundary payload option.optionId := by
  rw [feasible_eq_false, blocking_ne_nil]
  constructor
  · intro hexact
    refine ⟨fun hfact => ?_, fun hmentioned => hexact.1 (.inl hmentioned)⟩
    rcases hexact.2 (.inr hfact) with ⟨c, hc, hmentions⟩ | ⟨hconstraint, -⟩
    · exact ⟨c, hc, not_blank_of_mentions hmentions⟩
    · exact hconstraint
  · intro h
    constructor
    · rintro (hmentioned | ⟨-, hfact⟩)
      · exact h.named hmentioned
      · exact .inr hfact
    · rintro (⟨c, hc, hforbids⟩ | hfact)
      · exact .inl ⟨c, hc, mentions_of_forbids hforbids⟩
      · exact .inr ⟨h.heard hfact, hfact⟩

/-- The feasibility of every option is exact just when no option is confused, or when the request
is for a review of business income and rules no option out. -/
theorem feasibility_exact_iff (lower : String → String) (R : Rendering) (boundary : Char → Bool)
    (payload : DecisionRecommendInput) :
    (∀ option ∈ payload.options, ReportedInfeasible lower R payload option.optionId ↔
      RuledOut lower boundary payload option.optionId) ↔
        ∀ option ∈ payload.options,
          if payload.reviewsIncome then ¬RuledOut lower boundary payload option.optionId
          else Unconfused lower boundary payload option.optionId := by
  refine forall₂_congr fun option hoption => ?_
  cases hreview : payload.reviewsIncome with
  | true =>
    rw [if_pos rfl, iff_false_left (not_reported_of_review hreview)]
  | false =>
    rw [if_neg Bool.false_ne_true, reported_iff hreview hoption]
    exact infeasible_iff option

end Feasibility

section Sample

def asciiLower (text : String) : String := String.ofList (text.toList.map Char.toLower)

def plainRendering : Rendering := ⟨fun _ => "", fun _ => "", fun _ => ""⟩

/-- A name ends at a character that no name holds. -/
def nameEnd (c : Char) : Bool := !(c.isAlphanum || c = '_')

def callOption : DecisionOption where
  optionId := "call"
  label := "Call"
  normalized := ⟨by decide, by decide⟩

def callAgainOption : DecisionOption where
  optionId := "call again"
  label := "Call again"
  normalized := ⟨by decide, by decide⟩

def callInfeasible : EvidenceFact where
  evidenceId := "fact"
  claim := "Infeasible"
  supportsOptionIds := ["call"]
  normalized := ⟨by decide, by decide⟩
  bounded := by norm_num

/-- A fact that rules the only option out, without constraints. -/
def unheard : DecisionRecommendInput where
  goal := "sell"
  options := [callOption]
  evidence := [callInfeasible]
  normalized := by decide

/-- A constraint on the option of the longer id. -/
def overheard : DecisionRecommendInput where
  goal := "sell"
  options := [callOption, callAgainOption]
  constraints := ["must not call again"]
  normalized := by decide

/-- A known fact goes unheard without constraints, and forbidding a longer id forbids the option. -/
theorem option_misjudged :
    (¬ReportedInfeasible asciiLower plainRendering unheard "call" ∧
      RuledOut asciiLower nameEnd unheard "call") ∧
    ReportedInfeasible asciiLower plainRendering overheard "call" ∧
      ¬RuledOut asciiLower nameEnd overheard "call" := by
  have hunheard : ReportedInfeasible asciiLower plainRendering unheard callOption.optionId ↔
      (optionRow asciiLower unheard callOption).feasible = false :=
    reported_iff rfl (by simp [unheard])
  have hoverheard : ReportedInfeasible asciiLower plainRendering overheard callOption.optionId ↔
      (optionRow asciiLower overheard callOption).feasible = false :=
    reported_iff rfl (by simp [overheard])
  refine ⟨⟨?_, .inr ⟨callInfeasible, by simp [unheard], by decide⟩⟩, hoverheard.2 ?_, ?_⟩
  · intro hreported
    have hfeasible := hunheard.1 hreported
    rw [feasible_eq_false, blocking_ne_nil] at hfeasible
    rcases hfeasible with ⟨c, hc, -⟩ | ⟨⟨c, hc, -⟩, -⟩
    all_goals exact List.not_mem_nil hc
  · rw [feasible_eq_false, blocking_ne_nil]
    exact .inl ⟨"must not call again", by simp [overheard], by decide⟩
  · rintro (⟨c, hc, hforbids⟩ | ⟨f, hf, -⟩)
    · rw [List.mem_singleton.1 hc] at hforbids
      exact absurd hforbids (by decide)
    · exact List.not_mem_nil hf

end Sample

end Ajenda.Decision
