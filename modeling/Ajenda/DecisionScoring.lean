import Ajenda.CanonicalText
import Ajenda.DecimalRounding
import Ajenda.StableRanking
import Mathlib.Data.Prod.Lex

/-!
# The recommendation of a next action

`decision.recommend_next_action` over exact rationals: the score of an option, whether it is
feasible, and the option that is recommended. `lower` stands for `str.lower`. A review of business
income is asked for by the same action and looks at no option.
-/
namespace Ajenda.Decision
open JsonValue (Json Fields)
open Ajenda.Runtime (strip)
open Experience (orderedUnique sortedSet)
open DecimalRounding (roundTo)
open StableRanking (ranked foremost)

section Records

inductive EvidenceFactStatus
  | known | inferred | missing
  deriving DecidableEq

/-- A text without surrounding space that is not empty. -/
def Normalized (text : String) : Prop := strip text = text ∧ text ≠ ""

instance (text : String) : Decidable (Normalized text) := inferInstanceAs (Decidable (_ ∧ _))

structure EvidenceFact where
  evidenceId : String
  claim : String
  status : EvidenceFactStatus := .known
  confidence : ℚ := 1 / 2
  supportsOptionIds : List String := []
  supportsCriterionIds : List String := []
  durableSourceEvidenceIds : List String := []
  normalized : Normalized evidenceId ∧ Normalized claim
  bounded : 0 ≤ confidence ∧ confidence ≤ 1

structure DecisionCriterion where
  criterionId : String
  label : String
  weight : ℚ := 1
  required : Bool := false
  normalized : Normalized criterionId ∧ Normalized label
  bounded : 0 < weight ∧ weight ≤ 100

structure DecisionOption where
  optionId : String
  label : String
  description : String := ""
  interventionKey : Option String := none
  normalized : Normalized optionId ∧ Normalized label

structure DecisionRecommendInput where
  goal : String
  options : List DecisionOption := []
  criteria : List DecisionCriterion := []
  evidence : List EvidenceFact := []
  constraints : List String := []
  context : Fields := []
  normalized : Normalized goal

structure DimensionScore where
  criterionId : String
  label : String
  weight : ℚ
  score : ℚ
  status : Option EvidenceFactStatus
  reason : String
  evidenceIds : List String

end Records

section Scoring

/-- The facts that are linked to the criterion for the option. -/
def linked (facts : List EvidenceFact) (cid optionId : String) : List EvidenceFact :=
  facts.filter fun f => cid ∈ f.supportsCriterionIds ∧
    (f.supportsOptionIds = [] ∨ optionId ∈ f.supportsOptionIds)

def EvidenceFact.contribution (f : EvidenceFact) : ℚ :=
  match f.status with
  | .known => f.confidence
  | .inferred => 6 / 10 * f.confidence
  | .missing => 0

/-- The fact that contributes most, of several the first. -/
def best (facts : List EvidenceFact) : Option EvidenceFact := foremost EvidenceFact.contribution facts

def EvidenceFact.sources (f : EvidenceFact) : List String :=
  if f.durableSourceEvidenceIds = [] then [f.evidenceId] else f.durableSourceEvidenceIds

/-- What one criterion says of an option. -/
structure CriterionScore where
  score : ℚ
  best : Option EvidenceFact
  missing : List String
  gaps : List String
  supporting : List String
  evidenceIds : List String

def scoreCriterion (facts : List EvidenceFact) (optionId : String) (c : DecisionCriterion) :
    CriterionScore :=
  let linkedFacts := linked facts c.criterionId optionId
  match best linkedFacts with
  | none =>
    { score := 0
      best := none
      missing := [c.criterionId]
      gaps := if c.required then ["required_criterion_unsupported:" ++ c.criterionId] else []
      supporting := []
      evidenceIds := [] }
  | some strongest =>
    let absent := linkedFacts.filter (·.status = .missing)
    { score := strongest.contribution
      best := some strongest
      missing := absent.map fun _ => c.criterionId
      gaps := if c.required then absent.map fun f =>
        "required_evidence_missing:" ++ c.criterionId ++ ":" ++ f.evidenceId else []
      supporting := linkedFacts.flatMap EvidenceFact.sources
      evidenceIds := linkedFacts.map (·.evidenceId) }

def totalWeight (criteria : List DecisionCriterion) : ℚ :=
  let total := (criteria.map (·.weight)).sum
  if total = 0 then criteria.length else total

structure OptionScore where
  optionId : String
  totalScore : ℚ
  dimensionScores : List DimensionScore
  supportingEvidenceIds : List String
  missingCriterionIds : List String
  gaps : List String
  contributingFacts : List EvidenceFact

/-- `_score_option`. -/
def scoreOption (optionId : String) (criteria : List DecisionCriterion)
    (facts : List EvidenceFact) : OptionScore :=
  if criteria = [] then
    { optionId := optionId
      totalScore := 0
      dimensionScores := []
      supportingEvidenceIds := []
      missingCriterionIds := []
      gaps := ["no_criteria_supplied"]
      contributingFacts := [] }
  else
    let share (c : DecisionCriterion) : ℚ := c.weight / totalWeight criteria
    let scores := criteria.map fun c => (c, scoreCriterion facts optionId c)
    { optionId := optionId
      totalScore := roundTo 4 (scores.map fun s => s.2.score * share s.1).sum
      dimensionScores := scores.map fun s =>
        { criterionId := s.1.criterionId
          label := s.1.label
          weight := roundTo 4 (share s.1)
          score := roundTo 4 s.2.score
          status := s.2.best.map (·.status)
          reason := (s.2.best.map (·.claim)).getD
            "no evidence linked to this criterion for this option"
          evidenceIds := s.2.evidenceIds }
      supportingEvidenceIds := orderedUnique (scores.flatMap (·.2.supporting))
      missingCriterionIds := sortedSet (scores.flatMap (·.2.missing))
      gaps := scores.flatMap (·.2.gaps)
      contributingFacts := scores.filterMap (·.2.best) }

/-- The mean confidence of the contributing facts, less a penalty for gaps. -/
def OptionScore.confidence (s : OptionScore) : ℚ :=
  let linkedConf := (s.contributingFacts.filter (·.status ≠ .missing)).map (·.confidence)
  let baseConf := if linkedConf = [] then 35 / 100 else linkedConf.sum / linkedConf.length
  roundTo 4 (max (5 / 100) (baseConf - min (4 / 10) (8 / 100 * s.gaps.length)))

end Scoring

section Feasibility
variable (lower : String → String)

/-- `pattern in text`. -/
def contains (text pattern : String) : Bool := pattern.toList <:+: text.toList

/-- What a constraint says to block an option. -/
def blockPatterns (optionId : String) : List String :=
  ["forbid:" ++ lower optionId, "must not " ++ lower optionId]

/-- The fact is known, linked to the option and declares it infeasible. -/
def declares (optionId : String) (f : EvidenceFact) : Bool :=
  f.status = .known ∧ optionId ∈ f.supportsOptionIds ∧ contains (lower f.claim) "infeasible"

/-- What one constraint, and the facts under it, hold against the option. -/
def blockedBy (optionId : String) (facts : List EvidenceFact) (constraint : String) :
    List String :=
  let text := lower (strip constraint)
  if text = "" then []
  else
    (if (blockPatterns lower optionId).any (contains text) then [constraint] else []) ++
      (facts.filter (declares lower optionId)).map fun f =>
        "evidence:" ++ f.evidenceId ++ ":" ++ f.claim

/-- The blocking constraints of `_feasibility`; without any the option is feasible. -/
def blockingConstraints (optionId : String) (constraints : List String)
    (facts : List EvidenceFact) : List String :=
  constraints.flatMap (blockedBy lower optionId facts)

end Feasibility

section Recommending
variable (lower : String → String)

structure OptionRow where
  score : OptionScore
  label : String
  description : String
  interventionKey : Option String
  feasible : Bool
  blockingConstraints : List String
  confidence : ℚ

/-- The row of an option. -/
def optionRow (payload : DecisionRecommendInput) (option : DecisionOption) : OptionRow :=
  let score := scoreOption option.optionId payload.criteria payload.evidence
  let blocking := blockingConstraints lower option.optionId payload.constraints payload.evidence
  { score := if blocking = [] then score else { score with totalScore := 0 }
    label := option.label
    description := option.description
    interventionKey := option.interventionKey
    feasible := blocking = []
    blockingConstraints := blocking
    confidence :=
      if blocking = [] then score.confidence else roundTo 4 (min score.confidence (2 / 10)) }

/-- What the rows are sorted by. -/
def OptionRow.key (row : OptionRow) : Bool ×ₗ ℚ ×ₗ ℚ :=
  toLex (row.feasible, toLex (row.score.totalScore, row.confidence))

def optionScores (payload : DecisionRecommendInput) : List OptionRow :=
  ranked OptionRow.key (payload.options.map (optionRow lower payload))

/-- The chosen row clears the bar. -/
def OptionRow.clears (row : OptionRow) : Bool := row.feasible ∧ 0 < row.score.totalScore

/-- How the texts of a recommendation write numbers, lists and JSON values that are no texts. -/
structure Rendering where
  number : ℚ → String
  list : List String → String
  json : Json → String

/-- `str` of a JSON value. -/
def Rendering.str (R : Rendering) : Json → String
  | .str s => s
  | v => R.json v

structure Recommendation where
  goal : String
  recommendation : String
  interventionKey : Option String := none
  rationale : String
  confidence : ℚ
  uncertainty : List String
  supportingEvidenceIds : List String
  whatWouldChange : List String
  optionScores : List OptionRow

variable (R : Rendering)

def undecided (payload : DecisionRecommendInput) : Recommendation where
  goal := payload.goal
  recommendation := "gather_more_evidence"
  rationale := "No candidate options were supplied; collect evidence and define options before " ++
    "deciding."
  confidence := 4 / 10
  uncertainty := ["options_absent", "decision_space_undefined"]
  supportingEvidenceIds :=
    ((payload.evidence.filter (·.status ≠ .missing)).map (·.evidenceId)).take 10
  whatWouldChange :=
    ["Provide at least one candidate option with option_id and label.",
      "Attach evidence facts linked to criteria and options."]
  optionScores := []

def notCleared (payload : DecisionRecommendInput) (rows : List OptionRow) (chosen : OptionRow) :
    Recommendation where
  goal := payload.goal
  recommendation := "gather_more_evidence"
  interventionKey :=
    if chosen.score.optionId = "gather_more_evidence" then chosen.interventionKey else none
  rationale := "No feasible scored option cleared the bar. Top candidate '" ++ chosen.label ++
    "' score=" ++ R.number chosen.score.totalScore ++ " gaps=" ++
    R.list (if chosen.score.gaps = [] then chosen.blockingConstraints else chosen.score.gaps) ++ "."
  confidence := min (45 / 100) chosen.confidence
  uncertainty := "no_feasible_option" :: chosen.score.gaps.take 5
  supportingEvidenceIds := chosen.score.supportingEvidenceIds
  whatWouldChange :=
    ["Resolve required criterion gaps with known evidence.",
      "Remove or satisfy blocking constraints.",
      "Add alternative options if the current set is infeasible."]
  optionScores := rows

def leadingDimensions (score : OptionScore) : String :=
  if score.dimensionScores = [] then ""
  else
    let top := (ranked DimensionScore.score score.dimensionScores).take 3
    " Leading dimensions: " ++
      ", ".intercalate (top.map fun d => d.label ++ "=" ++ R.number d.score) ++ "."

def wouldChange (rows : List OptionRow) (chosen : OptionRow) : List String :=
  let changes := (chosen.score.gaps.take 5).map ("Resolve gap: " ++ ·) ++
    match rows[1]? with
    | some second =>
      if second.feasible then
        ["Evidence that raises '" ++ second.label ++ "' by more than " ++
          R.number (roundTo 4 (chosen.score.totalScore - second.score.totalScore)) ++
          " could change the ranking."]
      else []
    | none => []
  if changes = [] then
    ["Contradictory known evidence against the leading dimensions could reverse this " ++
      "recommendation."]
  else changes

def recommended (payload : DecisionRecommendInput) (rows : List OptionRow) (chosen : OptionRow) :
    Recommendation where
  goal := payload.goal
  recommendation := chosen.score.optionId
  interventionKey := chosen.interventionKey
  rationale := "Recommend '" ++ chosen.label ++ "' for goal '" ++ payload.goal ++
    "' with score=" ++ R.number chosen.score.totalScore ++ " confidence=" ++
    R.number chosen.confidence ++ "." ++ leadingDimensions R chosen.score
  confidence := chosen.confidence
  uncertainty :=
    (if chosen.score.dimensionScores.any (·.status = some .inferred) then
      ["relies_on_inferred_evidence"] else []) ++
    (if chosen.score.missingCriterionIds = [] then [] else ["partial_criterion_coverage"]) ++
    if chosen.confidence < 6 / 10 then ["low_confidence"] else []
  supportingEvidenceIds := chosen.score.supportingEvidenceIds
  whatWouldChange := wouldChange R rows chosen
  optionScores := rows

/-- The recommendation among the options. -/
def recommendOption (payload : DecisionRecommendInput) : Recommendation :=
  let rows := optionScores lower payload
  match rows.head? with
  | none => undecided payload
  | some chosen =>
    if chosen.clears then recommended R payload rows chosen else notCleared R payload rows chosen

end Recommending

section BusinessIncome

structure IncomeOpportunity where
  opportunityId : String
  title : String
  hypothesis : String
  validationStep : String
  evidenceIds : List String
  estimatedBusinessImpact : String
  confidence : ℚ := 55 / 100
  missingInformation : List String

structure BusinessReviewReport where
  objective : String
  incomeOpportunities : List IncomeOpportunity
  profileId : Option String
  approvedFactKeys : List String
  supportingEvidence : List String
  estimatedBusinessImpact : List String
  confidence : ℚ := 55 / 100
  missingInformation : List String
  evidenceGaps : List String

/-- What the review never knows. -/
def incomeGaps : List String :=
  ["historical revenue by product or service", "gross margin and delivery capacity",
    "customer acquisition and retention rates", "validated willingness to pay"]

def incomeOpportunities (sourceRef : String) : List IncomeOpportunity :=
  [{ opportunityId := "income:offer-expansion"
     title := "Test an adjacent offer for existing customers"
     hypothesis := "An adjacent offer could increase revenue per existing customer if demand and " ++
       "delivery capacity are confirmed."
     validationStep := "Interview existing customers and price a small paid pilot before building " ++
       "or promoting it."
     evidenceIds := [sourceRef]
     estimatedBusinessImpact := "Not estimated until demand, pricing, margin, and delivery " ++
       "capacity are measured."
     missingInformation := incomeGaps },
    { opportunityId := "income:conversion-improvement"
      title := "Improve conversion in the current sales path"
      hypothesis := "Improving qualification, follow-up, or proposal conversion may increase " ++
        "revenue without adding a new offer."
      validationStep := "Measure the current funnel by stage, then run one controlled change " ++
        "against a defined baseline."
      evidenceIds := [sourceRef]
      estimatedBusinessImpact := "Not estimated until baseline conversion, volume, and margin " ++
        "data are available."
      missingInformation := incomeGaps },
    { opportunityId := "income:retention-expansion"
      title := "Test retention or recurring-revenue improvements"
      hypothesis := "A retention or recurring service option may improve revenue stability if " ++
        "customers have an ongoing need."
      validationStep := "Review renewal and repeat-purchase evidence before offering a measured " ++
        "pilot to existing customers."
      evidenceIds := [sourceRef]
      estimatedBusinessImpact := "Not estimated until retention, repeat-purchase, and " ++
        "service-capacity data are available."
      missingInformation := incomeGaps }]

variable (R : Rendering)

/-- `_review_business_income`. -/
def reviewBusinessIncome (payload : DecisionRecommendInput) :
    Except String BusinessReviewReport :=
  match Fields.get payload.context "business_profile_facts" with
  | some (.obj profile) =>
    let approvedFacts := match Fields.get profile "approved_facts" with
      | some (.obj facts) => facts
      | _ => []
    let profileId := match Fields.get profile "profile_id" with
      | some v => if v.truthy ∧ strip (R.str v) ≠ "" then some (strip (R.str v)) else none
      | none => none
    let factKeys := ((approvedFacts.map Prod.fst).filter (strip · ≠ "")).insertionSort (· ≤ ·)
    let sourceRef := match profileId with
      | some profileId => "business-profile:" ++ profileId
      | none => "approved_business_profile"
    let opportunities := incomeOpportunities sourceRef
    .ok
      { objective := payload.goal
        incomeOpportunities := opportunities
        profileId := profileId
        approvedFactKeys := factKeys
        supportingEvidence := [sourceRef]
        estimatedBusinessImpact := opportunities.map (·.estimatedBusinessImpact)
        missingInformation := incomeGaps
        evidenceGaps := incomeGaps }
  | _ => .error "business income review requires bound approved business profile facts"

end BusinessIncome

section Action

/-- The output of the action. -/
inductive ActionOutput
  | recommendation (r : Recommendation)
  | businessReview (report : BusinessReviewReport)

/-- The request is for a review of business income. -/
def DecisionRecommendInput.reviewsIncome (payload : DecisionRecommendInput) : Bool :=
  Fields.get payload.context "review_kind" = some (.str "business_income")

/-- `decision_recommend_next_action`. -/
def decisionRecommendNextAction (lower : String → String) (R : Rendering)
    (payload : DecisionRecommendInput) : Except String ActionOutput :=
  if payload.reviewsIncome then
    (reviewBusinessIncome R payload).map .businessReview
  else .ok (.recommendation (recommendOption lower R payload))

/-- The action scores the options and recommends this. -/
def Recommends (lower : String → String) (R : Rendering) (payload : DecisionRecommendInput)
    (optionId : String) : Prop :=
  ∃ r, decisionRecommendNextAction lower R payload = .ok (.recommendation r) ∧
    r.recommendation = optionId

end Action

end Ajenda.Decision
