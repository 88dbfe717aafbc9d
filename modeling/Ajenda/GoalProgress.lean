import Mathlib.Algebra.Order.AbsoluteValue.Basic
import Mathlib.Algebra.Order.Ring.Rat
import Mathlib.Data.List.Basic

/-!
# The progress of a goal

`evaluate_goal_progress` reads the KPIs of a goal and answers one status. Values are the
rationals that doubles denote; `Doubles` gives the rounded difference and `math.isclose`.
The measurement path passes no evidence codes and no states.
-/
namespace Ajenda.GoalProgress

inductive KpiDirection
  | increase | decrease | maintain
  deriving DecidableEq

structure Kpi where
  kpiId : String
  goalId : String
  name : String
  metric : String
  direction : KpiDirection
  targetValue : Option ℚ
  currentValue : Option ℚ
  previousValue : Option ℚ
  unit : String
  required : Bool
  maintainTolerance : Option ℚ
  deriving DecidableEq

structure Doubles where
  sub : ℚ → ℚ → ℚ
  isClose : ℚ → ℚ → Bool

inductive KpiStatus
  | ok | gap | exceeded | insufficientData | withinTolerance
  deriving DecidableEq

structure KpiEvaluation where
  status : KpiStatus
  targetReached : Option Bool
  improving : Option Bool
  deriving DecidableEq

inductive GoalProgressStatus
  | achieved | onTrack | atRisk | offTrack | insufficientData
  deriving DecidableEq

def GoalProgressStatus.value : GoalProgressStatus → String
  | .achieved => "achieved"
  | .onTrack => "on_track"
  | .atRisk => "at_risk"
  | .offTrack => "off_track"
  | .insufficientData => "insufficient_data"

/-- The statuses that call for a need. -/
def GoalProgressStatus.isGap (status : GoalProgressStatus) : Bool :=
  status = .atRisk ∨ status = .offTrack

variable (D : Doubles)

def Kpi.change (k : Kpi) : Option ℚ :=
  match k.currentValue, k.previousValue with
  | some current, some previous => some (D.sub current previous)
  | _, _ => none

def evaluateKpi (k : Kpi) : KpiEvaluation :=
  match k.currentValue, k.targetValue with
  | some current, some target =>
    match k.direction with
    | .increase =>
      ⟨if target ≤ current then if target < current then .exceeded else .ok else .gap,
        some (target ≤ current), some ((k.change D).any (0 < ·))⟩
    | .decrease =>
      ⟨if current ≤ target then if current < target then .exceeded else .ok else .gap,
        some (current ≤ target), some ((k.change D).any (· < 0))⟩
    | .maintain =>
      let gap := |D.sub current target|
      let tolerance := k.maintainTolerance.getD 0
      ⟨if gap ≤ tolerance then if 0 < gap then .withinTolerance else .ok else .gap,
        some (gap ≤ tolerance),
        some (k.previousValue.any fun previous =>
          decide (gap < |D.sub previous target|) && !D.isClose gap |D.sub previous target|)⟩
  | _, _ => ⟨.insufficientData, none, none⟩

/-- The evaluation under the id of `k`: of several KPIs with one id the last is kept. -/
def evalById (kpis : List Kpi) (k : Kpi) : Kpi :=
  (kpis.reverse.find? fun e => e.kpiId = k.kpiId).getD k

/-- A KPI below its target moves against it; `e` is the KPI whose evaluation is under its id. -/
def movesAgainst (k e : Kpi) : Bool :=
  match k.change D with
  | none => false
  | some change =>
    match k.direction with
    | .increase => change < 0
    | .decrease => 0 < change
    | .maintain =>
      match e.currentValue, e.previousValue, e.targetValue with
      | some current, some previous, some target =>
        decide (|D.sub previous target| < |D.sub current target|) &&
          !D.isClose |D.sub current target| |D.sub previous target|
      | _, _, _ => false

/-- The required KPIs of the goal, each with the KPI whose evaluation it reads. -/
def requiredPairs (goalId : String) (kpis : List Kpi) : List (Kpi × Kpi) :=
  let ofGoal := kpis.filter fun k => k.goalId = goalId
  (ofGoal.filter fun k => k.required).map fun k => (k, evalById ofGoal k)

def evaluateGoalProgress (goalId : String) (kpis : List Kpi) : GoalProgressStatus :=
  let required := requiredPairs goalId kpis
  let progressGaps := required.any fun p =>
    (evaluateKpi D p.2).status = .insufficientData ∨ (evaluateKpi D p.2).targetReached = some false
  if required = [] then .insufficientData
  else if required.any fun p => (evaluateKpi D p.2).status = .insufficientData then
    .insufficientData
  else if required.all fun p => (evaluateKpi D p.2).targetReached = some true then .achieved
  else
    let behind := required.filter fun p => (evaluateKpi D p.2).targetReached ≠ some true
    let movingAgainst := behind.any fun p => movesAgainst D p.1 p.2
    let anyImproving := behind.any fun p =>
      !movesAgainst D p.1 p.2 && (evaluateKpi D p.2).improving = some true
    if movingAgainst then .offTrack
    else if anyImproving ∧ progressGaps then .atRisk
    else if anyImproving then .onTrack
    else .atRisk

variable {D}

theorem evaluateKpi_undecided {k : Kpi} :
    (evaluateKpi D k).targetReached = none ↔ (evaluateKpi D k).status = .insufficientData := by
  unfold evaluateKpi
  split
  · split <;> simp only [reduceCtorEq, false_iff] <;> split_ifs <;> simp
  · simp

end Ajenda.GoalProgress
