import Ajenda.GoalProgress
import Ajenda.DecimalRounding

/-!
# The attainment of a KPI

`evaluate_kpi` with all it reports. Attainment agrees with the target being reached where the ratio
of the two values does: negative targets, a lowered value at or below zero and a ratio within half
a millionth of 1 are where it does not.
-/
namespace Ajenda.KpiAttainment
open GoalProgress (Doubles Kpi KpiDirection KpiStatus)
open DecimalRounding (roundTo roundTo_mono roundTo_nonneg roundTo_le_one roundTo_eq_one_iff)

section Evaluation

/-- The arithmetic of floats, `round` and how a float is written. -/
structure Arithmetic extends Doubles where
  add : ℚ → ℚ → ℚ
  div : ℚ → ℚ → ℚ
  round : ℚ → ℕ → ℚ
  text : ℚ → String

/-- Exact arithmetic; `round` takes the even digit of two. -/
def Arithmetic.exact (text : ℚ → String) : Arithmetic where
  sub a b := a - b
  isClose a b := |a - b| ≤ max (1 / 10 ^ 9 * max |a| |b|) (1 / 10 ^ 12)
  add a b := a + b
  div a b := a / b
  round x digits := roundTo digits x
  text := text

structure KpiEvaluation where
  kpiId : String
  metric : String
  direction : KpiDirection
  currentValue : Option ℚ
  targetValue : Option ℚ
  previousValue : Option ℚ
  gap : Option ℚ := none
  change : Option ℚ := none
  attainment : Option ℚ := none
  targetReached : Option Bool := none
  improving : Option Bool := none
  status : KpiStatus := .insufficientData
  explanation : String := ""
  deriving DecidableEq

/-- What a direction makes of a value and its target. -/
structure Reading where
  gap : ℚ
  attainment : Option ℚ
  targetReached : Bool
  improving : Bool
  status : KpiStatus
  explanation : String

/-- `max(0.0, min(1.0, x))`. -/
def clamp (x : ℚ) : ℚ := max 0 (min 1 x)

variable (A : Arithmetic)

def increaseReading (change : Option ℚ) (current target : ℚ) : Reading :=
  let gap := A.sub target current
  { gap := gap
    attainment := if target = 0 then none else some (clamp (A.div current target))
    targetReached := target ≤ current
    improving := change.any (0 < ·)
    status := if target ≤ current then if target < current then .exceeded else .ok else .gap
    explanation :=
      if target ≤ current then
        "current " ++ A.text current ++ " meets/exceeds target " ++ A.text target ++ " (increase)"
      else "need +" ++ A.text gap ++ " to reach target " ++ A.text target ++ " from " ++
        A.text current }

def decreaseReading (change : Option ℚ) (current target : ℚ) : Reading :=
  let gap := A.sub current target
  { gap := gap
    attainment :=
      if current = 0 ∧ target = 0 then some 1
      else if current = 0 then some 0
      else some (clamp (A.div target current))
    targetReached := current ≤ target
    improving := change.any (· < 0)
    status := if current ≤ target then if current < target then .exceeded else .ok else .gap
    explanation :=
      if current ≤ target then
        "current " ++ A.text current ++ " meets/under target " ++ A.text target ++ " (decrease)"
      else "need -" ++ A.text gap ++ " to reach target " ++ A.text target ++ " from " ++
        A.text current }

def maintainReading (previous tolerance : Option ℚ) (current target : ℚ) : Reading :=
  let tol := tolerance.getD 0
  let gap := |A.sub current target|
  { gap := gap
    attainment :=
      some (if gap ≤ tol then 1
        else max 0 (A.sub 1 (A.div gap (A.add |target| (1 / 10 ^ 9)))))
    targetReached := gap ≤ tol
    improving := previous.any fun p =>
      decide (gap < |A.sub p target|) && !A.isClose gap |A.sub p target|
    status := if gap ≤ tol then if 0 < gap then .withinTolerance else .ok else .gap
    explanation :=
      if gap ≤ tol then
        "current " ++ A.text current ++ " within ±" ++ A.text tol ++ " of target " ++
          A.text target
      else "|current-target|=" ++ A.text gap ++ " exceeds tolerance " ++ A.text tol }

def reading (k : Kpi) (current target : ℚ) : Reading :=
  match k.direction with
  | .increase => increaseReading A (k.change A.toDoubles) current target
  | .decrease => decreaseReading A (k.change A.toDoubles) current target
  | .maintain => maintainReading A k.previousValue k.maintainTolerance current target

/-- `evaluate_kpi`. -/
def evaluateKpi (k : Kpi) : KpiEvaluation :=
  let change := k.change A.toDoubles
  match k.currentValue, k.targetValue with
  | some current, some target =>
    let r := reading A k current target
    { kpiId := k.kpiId
      metric := k.metric
      direction := k.direction
      currentValue := some current
      targetValue := some target
      previousValue := k.previousValue
      gap := some (A.round r.gap 6)
      change := change.map (A.round · 6)
      attainment := r.attainment.map (A.round · 6)
      targetReached := some r.targetReached
      improving := some r.improving
      status := r.status
      explanation := r.explanation }
  | current, target =>
    { kpiId := k.kpiId
      metric := k.metric
      direction := k.direction
      currentValue := current
      targetValue := target
      previousValue := k.previousValue
      change := change
      explanation := "current_value or target_value missing" }

/-- What goal progress reads of an evaluation. -/
def KpiEvaluation.progress (e : KpiEvaluation) : GoalProgress.KpiEvaluation :=
  ⟨e.status, e.targetReached, e.improving⟩

theorem evaluateKpi_progress (k : Kpi) :
    (evaluateKpi A k).progress = GoalProgress.evaluateKpi A.toDoubles k := by
  cases hc : k.currentValue with
  | none => simp [evaluateKpi, GoalProgress.evaluateKpi, KpiEvaluation.progress, hc]
  | some current =>
    cases ht : k.targetValue with
    | none => simp [evaluateKpi, GoalProgress.evaluateKpi, KpiEvaluation.progress, hc, ht]
    | some target =>
      cases hd : k.direction <;>
        simp [evaluateKpi, GoalProgress.evaluateKpi, KpiEvaluation.progress, hc, ht, reading, hd,
          increaseReading, decreaseReading, maintainReading]

end Evaluation

section Clamp
variable {x y : ℚ}

/-- Half a unit of the sixth digit. -/
def halfUnit : ℚ := 1 / (2 * 10 ^ 6)

theorem halfUnit_pos : 0 < halfUnit := by norm_num [halfUnit]

theorem halfUnit_lt_one : halfUnit < 1 := by norm_num [halfUnit]

theorem clamp_mono (h : x ≤ y) : clamp x ≤ clamp y :=
  max_le_max le_rfl (min_le_min le_rfl h)

theorem clamp_nonneg : 0 ≤ clamp x := le_max_left _ _

theorem clamp_le_one : clamp x ≤ 1 := max_le zero_le_one (min_le_left _ _)

theorem round_clamp_eq_one : roundTo 6 (clamp x) = 1 ↔ 1 - halfUnit ≤ x := by
  rw [roundTo_eq_one_iff (by norm_num), abs_sub_comm, abs_of_nonneg (sub_nonneg.2 clamp_le_one),
    sub_le_comm]
  change 1 - halfUnit ≤ clamp x ↔ _
  have hpos : ¬1 - halfUnit ≤ 0 := not_le.2 (sub_pos.2 halfUnit_lt_one)
  rw [clamp, le_max_iff, le_min_iff, or_iff_right hpos,
    and_iff_right (sub_le_self 1 halfUnit_pos.le)]

theorem round_clamp_unit : 0 ≤ roundTo 6 (clamp x) ∧ roundTo 6 (clamp x) ≤ 1 :=
  ⟨roundTo_nonneg clamp_nonneg, roundTo_le_one clamp_le_one⟩

end Clamp

section Law
variable (A : Arithmetic)

/-- The KPI with another observed value. -/
def observing (k : Kpi) (c : ℚ) : Kpi := { k with currentValue := some c }

/-- A reported attainment is a ratio, and is 1 exactly when the target is reached. -/
def AgreesWithTarget (e : KpiEvaluation) : Prop :=
  ∀ a ∈ e.attainment, (0 ≤ a ∧ a ≤ 1) ∧ (a = 1 ↔ e.targetReached = some true)

/-- The second value is at least as good as the first. -/
def Improves (k : Kpi) (c c' : ℚ) : Prop :=
  match k.direction with
  | .increase => c ≤ c'
  | .decrease => c' ≤ c
  | .maintain => ∀ t ∈ k.targetValue, |c' - t| ≤ |c - t|

/-- What attainment owes to two observed values of a KPI. -/
structure AttainmentLaw (k : Kpi) (c c' : ℚ) : Prop where
  first : AgreesWithTarget (evaluateKpi A (observing k c))
  second : AgreesWithTarget (evaluateKpi A (observing k c'))
  monotone : Improves k c c' → ∀ a ∈ (evaluateKpi A (observing k c)).attainment,
    ∀ a' ∈ (evaluateKpi A (observing k c')).attainment, a ≤ a'

/-- The ratio of the two values tells whether the target is reached. -/
def Exact (k : Kpi) (c : ℚ) : Prop :=
  ∀ t ∈ k.targetValue, match k.direction with
    | .increase => t = 0 ∨ 0 < t ∧ (t ≤ c ∨ c < (1 - halfUnit) * t) ∨
        t < 0 ∧ t ≤ c ∧ c ≤ (1 - halfUnit) * t
    | .decrease => t = 0 ∧ 0 ≤ c ∨ 0 < t ∧ 0 < c ∧ (c ≤ t ∨ t < (1 - halfUnit) * c) ∨
        t < 0 ∧ (0 ≤ c ∨ c ≤ t ∧ t ≤ (1 - halfUnit) * c)
    | .maintain => |c - t| ≤ k.maintainTolerance.getD 0 ∨
        halfUnit * (|t| + 1 / 10 ^ 9) < |c - t|

variable {A} {text : ℚ → String} {k : Kpi} {c c' t : ℚ}

theorem evaluateKpi_untargeted (h : k.targetValue = none) :
    (evaluateKpi A (observing k c)).attainment = none := by
  simp [evaluateKpi, observing, h]

theorem evaluateKpi_attainment (h : k.targetValue = some t) :
    (evaluateKpi A (observing k c)).attainment =
      ((reading A (observing k c) c t).attainment).map (A.round · 6) := by
  simp [evaluateKpi, observing, h]

theorem evaluateKpi_reached (h : k.targetValue = some t) :
    (evaluateKpi A (observing k c)).targetReached =
      some (reading A (observing k c) c t).targetReached := by
  simp [evaluateKpi, observing, h]

/-- The attainment of a value to be raised. -/
theorem attainment_increase (h : k.targetValue = some t) (hd : k.direction = .increase) :
    (evaluateKpi (.exact text) (observing k c)).attainment =
      if t = 0 then none else some (roundTo 6 (clamp (c / t))) := by
  rw [evaluateKpi_attainment h]
  simp only [reading, observing, hd, increaseReading, Arithmetic.exact]
  split_ifs <;> rfl

theorem attainment_decrease (h : k.targetValue = some t) (hd : k.direction = .decrease) :
    (evaluateKpi (.exact text) (observing k c)).attainment =
      if c = 0 ∧ t = 0 then some 1 else if c = 0 then some 0
      else some (roundTo 6 (clamp (t / c))) := by
  rw [evaluateKpi_attainment h]
  simp only [reading, observing, hd, decreaseReading, Arithmetic.exact]
  split_ifs <;> simp [DecimalRounding.roundTo_one, DecimalRounding.roundTo_zero]

/-- What is left of a kept value at a distance from its target. -/
def closeness (distance t : ℚ) : ℚ := 1 - distance / (|t| + 1 / 10 ^ 9)

theorem attainment_maintain (h : k.targetValue = some t) (hd : k.direction = .maintain) :
    (evaluateKpi (.exact text) (observing k c)).attainment =
      if |c - t| ≤ k.maintainTolerance.getD 0 then some 1
      else some (roundTo 6 (max 0 (closeness |c - t| t))) := by
  rw [evaluateKpi_attainment h]
  simp only [reading, observing, hd, maintainReading, Arithmetic.exact]
  split_ifs <;> simp [DecimalRounding.roundTo_one, closeness]

theorem agrees_none {e : KpiEvaluation} (h : e.attainment = none) : AgreesWithTarget e := by
  simp [AgreesWithTarget, h]

/-- A value that is reported as it is. -/
theorem agrees_some {e : KpiEvaluation} {a : ℚ} {reached : Bool} (ha : e.attainment = some a)
    (hr : e.targetReached = some reached) (hunit : 0 ≤ a ∧ a ≤ 1) :
    AgreesWithTarget e ↔ (a = 1 ↔ reached = true) := by
  simp [AgreesWithTarget, ha, hr, hunit]

theorem agrees_clamp {e : KpiEvaluation} {x : ℚ} {reached : Bool}
    (ha : e.attainment = some (roundTo 6 (clamp x))) (hr : e.targetReached = some reached) :
    AgreesWithTarget e ↔ (1 - halfUnit ≤ x ↔ reached = true) := by
  rw [agrees_some ha hr round_clamp_unit, round_clamp_eq_one]

theorem reached_increase (h : k.targetValue = some t) (hd : k.direction = .increase) :
    (evaluateKpi A (observing k c)).targetReached = some (decide (t ≤ c)) := by
  rw [evaluateKpi_reached h]
  simp [reading, observing, hd, increaseReading]

theorem reached_decrease (h : k.targetValue = some t) (hd : k.direction = .decrease) :
    (evaluateKpi A (observing k c)).targetReached = some (decide (c ≤ t)) := by
  rw [evaluateKpi_reached h]
  simp [reading, observing, hd, decreaseReading]

theorem reached_maintain (h : k.targetValue = some t) (hd : k.direction = .maintain) :
    (evaluateKpi (.exact text) (observing k c)).targetReached =
      some (decide (|c - t| ≤ k.maintainTolerance.getD 0)) := by
  rw [evaluateKpi_reached h]
  simp [reading, observing, hd, maintainReading, Arithmetic.exact]

theorem exact_increase (h : k.targetValue = some t) (hd : k.direction = .increase) :
    Exact k c ↔ t = 0 ∨ 0 < t ∧ (t ≤ c ∨ c < (1 - halfUnit) * t) ∨
      t < 0 ∧ t ≤ c ∧ c ≤ (1 - halfUnit) * t := by
  simp [Exact, h, hd]

theorem exact_decrease (h : k.targetValue = some t) (hd : k.direction = .decrease) :
    Exact k c ↔ t = 0 ∧ 0 ≤ c ∨ 0 < t ∧ 0 < c ∧ (c ≤ t ∨ t < (1 - halfUnit) * c) ∨
      t < 0 ∧ (0 ≤ c ∨ c ≤ t ∧ t ≤ (1 - halfUnit) * c) := by
  simp [Exact, h, hd]

theorem exact_maintain (h : k.targetValue = some t) (hd : k.direction = .maintain) :
    Exact k c ↔ |c - t| ≤ k.maintainTolerance.getD 0 ∨
      halfUnit * (|t| + 1 / 10 ^ 9) < |c - t| := by
  simp [Exact, h, hd]

/-- The ratio `x / y` of a positive `y` rounds to 1 from `y` on, short of half a millionth. -/
theorem ratio_pos {x y : ℚ} (hy : 0 < y) :
    (1 - halfUnit ≤ x / y ↔ y ≤ x) ↔ y ≤ x ∨ x < (1 - halfUnit) * y := by
  have hbelow : (1 - halfUnit) * y < y := by
    rw [one_sub_mul, sub_lt_self_iff]
    exact mul_pos halfUnit_pos hy
  rw [le_div_iff₀ hy]
  constructor
  · intro hiff
    rcases lt_or_ge x ((1 - halfUnit) * y) with hx | hx
    · exact .inr hx
    · exact .inl (hiff.1 hx)
  · rintro (hx | hx)
    · exact iff_of_true (hbelow.le.trans hx) hx
    · exact iff_of_false hx.not_ge (hx.trans hbelow).not_ge

/-- The ratio `x / y` of a negative `y` rounds to 1 up to `y` and beyond. -/
theorem ratio_neg {x y : ℚ} (hy : y < 0) :
    (1 - halfUnit ≤ x / y ↔ y ≤ x) ↔ y ≤ x ∧ x ≤ (1 - halfUnit) * y := by
  have habove : y < (1 - halfUnit) * y := by
    rw [one_sub_mul, lt_sub_comm, sub_self]
    exact mul_neg_of_pos_of_neg halfUnit_pos hy
  rw [le_div_iff_of_neg hy]
  constructor
  · intro hiff
    rcases le_or_gt y x with hx | hx
    · exact ⟨hx, hiff.2 hx⟩
    · exact absurd (hiff.1 (hx.trans habove).le) hx.not_ge
  · rintro ⟨hx, hle⟩
    exact iff_of_true hle hx

theorem agrees_increase (h : k.targetValue = some t) (hd : k.direction = .increase) :
    AgreesWithTarget (evaluateKpi (.exact text) (observing k c)) ↔ Exact k c := by
  rw [exact_increase h hd]
  have hattainment : (evaluateKpi (.exact text) (observing k c)).attainment = _ :=
    attainment_increase h hd
  rcases lt_trichotomy t 0 with ht | ht | ht
  · rw [if_neg ht.ne] at hattainment
    rw [agrees_clamp hattainment (reached_increase h hd), decide_eq_true_iff, ratio_neg ht]
    simp [ht.ne, ht, ht.not_gt]
  · rw [if_pos ht] at hattainment
    exact iff_of_true (agrees_none hattainment) (.inl ht)
  · rw [if_neg ht.ne'] at hattainment
    rw [agrees_clamp hattainment (reached_increase h hd), decide_eq_true_iff, ratio_pos ht]
    simp [ht.ne', ht, ht.not_gt]

theorem agrees_decrease (h : k.targetValue = some t) (hd : k.direction = .decrease) :
    AgreesWithTarget (evaluateKpi (.exact text) (observing k c)) ↔ Exact k c := by
  rw [exact_decrease h hd]
  have hattainment : (evaluateKpi (.exact text) (observing k c)).attainment = _ :=
    attainment_decrease h hd
  have hfactor : 0 < 1 - halfUnit := sub_pos.2 halfUnit_lt_one
  rcases lt_trichotomy c 0 with hc | hc | hc
  · have hscaled : (1 - halfUnit) * c < 0 := mul_neg_of_pos_of_neg hfactor hc
    rw [if_neg fun hzero => hc.ne hzero.1, if_neg hc.ne] at hattainment
    rw [agrees_clamp hattainment (reached_decrease h hd), decide_eq_true_iff, ratio_neg hc]
    constructor
    · rintro ⟨hreached, hle⟩
      exact .inr (.inr ⟨hle.trans_lt hscaled, .inr ⟨hreached, hle⟩⟩)
    · rintro (⟨-, hnonneg⟩ | ⟨-, hpos, -⟩ | ⟨-, hnonneg | hband⟩)
      · exact absurd hnonneg hc.not_ge
      · exact absurd hpos hc.not_gt
      · exact absurd hnonneg hc.not_ge
      · exact hband
  · subst hc
    by_cases ht : t = 0
    · rw [if_pos ⟨rfl, ht⟩] at hattainment
      rw [agrees_some hattainment (reached_decrease h hd) ⟨zero_le_one, le_rfl⟩]
      simp [ht]
    · rw [if_neg fun hzero => ht hzero.2, if_pos rfl] at hattainment
      rw [agrees_some hattainment (reached_decrease h hd) ⟨le_rfl, zero_le_one⟩]
      simp [ht]
  · rw [if_neg fun hzero => hc.ne' hzero.1, if_neg hc.ne'] at hattainment
    rw [agrees_clamp hattainment (reached_decrease h hd), decide_eq_true_iff, ratio_pos hc]
    have hscaled : 0 < (1 - halfUnit) * c := mul_pos hfactor hc
    rcases lt_trichotomy t 0 with ht | ht | ht
    · exact iff_of_true (.inr (ht.trans hscaled)) (.inr (.inr ⟨ht, .inl hc.le⟩))
    · exact iff_of_true (.inr (ht ▸ hscaled)) (.inl ⟨ht, hc.le⟩)
    · simp [ht.ne', ht, ht.not_gt, hc]

theorem agrees_maintain (h : k.targetValue = some t) (hd : k.direction = .maintain) :
    AgreesWithTarget (evaluateKpi (.exact text) (observing k c)) ↔ Exact k c := by
  rw [exact_maintain h hd]
  have hattainment : (evaluateKpi (.exact text) (observing k c)).attainment = _ :=
    attainment_maintain h hd
  have hscale : 0 < |t| + 1 / 10 ^ 9 := by positivity
  by_cases hreached : |c - t| ≤ k.maintainTolerance.getD 0
  · rw [if_pos hreached] at hattainment
    rw [agrees_some hattainment (reached_maintain h hd) ⟨zero_le_one, le_rfl⟩]
    simp [hreached]
  · rw [if_neg hreached] at hattainment
    have hle : closeness |c - t| t ≤ 1 := sub_le_self 1 (by positivity)
    have hclamp : max 0 (closeness |c - t| t) = clamp (closeness |c - t| t) := by
      rw [clamp, min_eq_right hle]
    rw [hclamp] at hattainment
    rw [agrees_clamp hattainment (reached_maintain h hd), decide_eq_true_iff, closeness,
      sub_le_sub_iff_left, div_le_iff₀ hscale]
    simp [hreached]

theorem agrees_iff_exact :
    AgreesWithTarget (evaluateKpi (.exact text) (observing k c)) ↔ Exact k c := by
  cases h : k.targetValue with
  | none => exact iff_of_true (agrees_none (evaluateKpi_untargeted h)) (by simp [Exact, h])
  | some t =>
    cases hd : k.direction with
    | increase => exact agrees_increase h hd
    | decrease => exact agrees_decrease h hd
    | maintain => exact agrees_maintain h hd

/-- Nothing is above the attainment of a value that reaches its target. -/
theorem le_of_reached {e e' : KpiEvaluation} (h : AgreesWithTarget e) (h' : AgreesWithTarget e')
    (hreached : e'.targetReached = some true) : ∀ a ∈ e.attainment, ∀ a' ∈ e'.attainment, a ≤ a' := by
  intro a ha a' ha'
  rw [(h' a' ha').2.2 hreached]
  exact (h a ha).1.2

theorem clamp_of_nonpos {x : ℚ} (hx : x ≤ 0) : clamp x = 0 :=
  max_eq_left ((min_le_right _ _).trans hx)

/-- A value at or above zero has no attainment against a negative target. -/
theorem attainment_decrease_neg (h : k.targetValue = some t) (hd : k.direction = .decrease)
    (ht : t < 0) (hc : 0 ≤ c) : (evaluateKpi (.exact text) (observing k c)).attainment = some 0 := by
  rw [attainment_decrease h hd, if_neg fun hzero => ht.ne hzero.2]
  split_ifs
  · rfl
  · rw [clamp_of_nonpos (div_nonpos_of_nonpos_of_nonneg ht.le hc), DecimalRounding.roundTo_zero]

theorem monotone_increase (h : k.targetValue = some t) (hd : k.direction = .increase)
    (hc : Exact k c) (hc' : Exact k c') (hle : c ≤ c') :
    ∀ a ∈ (evaluateKpi (.exact text) (observing k c)).attainment,
      ∀ a' ∈ (evaluateKpi (.exact text) (observing k c')).attainment, a ≤ a' := by
  have hagrees : AgreesWithTarget (evaluateKpi (.exact text) (observing k c)) :=
    agrees_iff_exact.2 hc
  have hagrees' : AgreesWithTarget (evaluateKpi (.exact text) (observing k c')) :=
    agrees_iff_exact.2 hc'
  rcases (exact_increase h hd).1 hc' with ht | ⟨ht, -⟩ | ⟨ht, hreached, -⟩
  · intro a ha
    rw [attainment_increase h hd, if_pos ht] at ha
    cases ha
  · intro a ha a' ha'
    rw [attainment_increase h hd, if_neg ht.ne', Option.mem_some_iff] at ha ha'
    rw [← ha, ← ha']
    exact roundTo_mono (clamp_mono (div_le_div_of_nonneg_right hle ht.le))
  · refine le_of_reached hagrees hagrees' ?_
    rw [reached_increase h hd, decide_eq_true hreached]

theorem monotone_decrease (h : k.targetValue = some t) (hd : k.direction = .decrease)
    (hc : Exact k c) (hc' : Exact k c') (hle : c' ≤ c) :
    ∀ a ∈ (evaluateKpi (.exact text) (observing k c)).attainment,
      ∀ a' ∈ (evaluateKpi (.exact text) (observing k c')).attainment, a ≤ a' := by
  have hagrees : AgreesWithTarget (evaluateKpi (.exact text) (observing k c)) :=
    agrees_iff_exact.2 hc
  have hagrees' : AgreesWithTarget (evaluateKpi (.exact text) (observing k c')) :=
    agrees_iff_exact.2 hc'
  by_cases hreached : c' ≤ t
  · refine le_of_reached hagrees hagrees' ?_
    rw [reached_decrease h hd, decide_eq_true hreached]
  · have habove : t < c' := not_le.1 hreached
    rcases lt_or_ge t 0 with ht | ht
    · -- the lower value is not below zero, so there is nothing to attain
      have hnonneg : 0 ≤ c' := by
        rcases (exact_decrease h hd).1 hc' with ⟨hzero, -⟩ | ⟨hpos, -⟩ | ⟨-, hband⟩
        · exact absurd hzero ht.ne
        · exact absurd hpos ht.not_gt
        · exact hband.resolve_right fun hin => hreached hin.1
      rw [attainment_decrease_neg h hd ht hnonneg, attainment_decrease_neg h hd ht (hnonneg.trans hle)]
      simp
    · have hpos' : 0 < c' := ht.trans_lt habove
      have hpos : 0 < c := hpos'.trans_le hle
      intro a ha a' ha'
      rw [attainment_decrease h hd, if_neg fun hzero => hpos.ne' hzero.1, if_neg hpos.ne',
        Option.mem_some_iff] at ha
      rw [attainment_decrease h hd, if_neg fun hzero => hpos'.ne' hzero.1, if_neg hpos'.ne',
        Option.mem_some_iff] at ha'
      rw [← ha, ← ha']
      exact roundTo_mono (clamp_mono (div_le_div_of_nonneg_left ht hpos' hle))

theorem monotone_maintain (h : k.targetValue = some t) (hd : k.direction = .maintain)
    (hc : Exact k c) (hc' : Exact k c') (hle : |c' - t| ≤ |c - t|) :
    ∀ a ∈ (evaluateKpi (.exact text) (observing k c)).attainment,
      ∀ a' ∈ (evaluateKpi (.exact text) (observing k c')).attainment, a ≤ a' := by
  have hagrees : AgreesWithTarget (evaluateKpi (.exact text) (observing k c)) :=
    agrees_iff_exact.2 hc
  have hagrees' : AgreesWithTarget (evaluateKpi (.exact text) (observing k c')) :=
    agrees_iff_exact.2 hc'
  by_cases hreached : |c' - t| ≤ k.maintainTolerance.getD 0
  · refine le_of_reached hagrees hagrees' ?_
    rw [reached_maintain h hd, decide_eq_true hreached]
  · intro a ha a' ha'
    rw [attainment_maintain h hd, if_neg fun hin => hreached (hle.trans hin),
      Option.mem_some_iff] at ha
    rw [attainment_maintain h hd, if_neg hreached, Option.mem_some_iff] at ha'
    rw [← ha, ← ha']
    refine roundTo_mono (max_le_max le_rfl (sub_le_sub_left ?_ 1))
    exact div_le_div_of_nonneg_right hle (by positivity)

/-- Attainment agrees with the target being reached exactly where the ratio of the values does. -/
theorem attainmentLaw_iff (text : ℚ → String) (k : Kpi) (c c' : ℚ) :
    AttainmentLaw (.exact text) k c c' ↔ Exact k c ∧ Exact k c' := by
  refine ⟨fun h => ⟨agrees_iff_exact.1 h.first, agrees_iff_exact.1 h.second⟩, fun h => ?_⟩
  refine ⟨agrees_iff_exact.2 h.1, agrees_iff_exact.2 h.2, fun himproves => ?_⟩
  cases ht : k.targetValue with
  | none =>
    rw [evaluateKpi_untargeted ht]
    simp
  | some t =>
    unfold Improves at himproves
    cases hd : k.direction with
    | increase =>
      rw [hd] at himproves
      exact monotone_increase ht hd h.1 h.2 himproves
    | decrease =>
      rw [hd] at himproves
      exact monotone_decrease ht hd h.1 h.2 himproves
    | maintain =>
      rw [hd] at himproves
      exact monotone_maintain ht hd h.1 h.2 (himproves t ht)

/-- Errors to be brought down to five. -/
def openErrors : Kpi where
  kpiId := "errors"
  goalId := "quality"
  name := "Open errors"
  metric := "open_errors"
  direction := .decrease
  targetValue := some 5
  currentValue := none
  previousValue := none
  unit := ""
  required := true
  maintainTolerance := none

/-- No error at all reaches the target and attains nothing of it. -/
theorem no_errors_attain_nothing :
    (evaluateKpi (.exact fun _ => "") (observing openErrors 0)).targetReached = some true ∧
      (evaluateKpi (.exact fun _ => "") (observing openErrors 0)).attainment = some 0 := by
  constructor
  · rw [reached_decrease rfl rfl]
    norm_num
  · rw [attainment_decrease rfl rfl]
    norm_num

end Law

end Ajenda.KpiAttainment
