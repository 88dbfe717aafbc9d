import Mathlib.Algebra.Order.Floor.Ring
import Mathlib.Algebra.Order.Field.Basic
import Mathlib.Algebra.Ring.Int.Parity
import Mathlib.Data.Rat.Floor
import Mathlib.Tactic.FieldSimp
import Mathlib.Tactic.Linarith
import Mathlib.Tactic.Positivity

/-!
# Rounding to decimal digits

Rounding to the nearest multiple of a power of ten, of two the even one. It is monotone, keeps
integers, and reaches 1 from half a digit on.
-/
namespace Ajenda.DecimalRounding

variable {α : Type*} [Field α] [LinearOrder α] [IsStrictOrderedRing α] [FloorRing α] {x y : α}
  {m n : ℤ} {digits : ℕ}

/-- The nearest integer, of two the even one. -/
def roundEven (x : α) : ℤ :=
  if x - ⌊x⌋ < 1 / 2 then ⌊x⌋
  else if 1 / 2 < x - ⌊x⌋ then ⌊x⌋ + 1
  else if Even ⌊x⌋ then ⌊x⌋
  else ⌊x⌋ + 1

/-- The integer is nearest, and even when another is as near. -/
def NearestEven (x : α) (n : ℤ) : Prop := |x - n| ≤ 1 / 2 ∧ (|x - n| = 1 / 2 → Even n)

theorem roundEven_nearest (x : α) : NearestEven x (roundEven x) := by
  have hlow := Int.floor_le x
  have hhigh := Int.lt_floor_add_one x
  have hbelow : |x - ⌊x⌋| = x - ⌊x⌋ := abs_of_nonneg (sub_nonneg.2 hlow)
  have habove : |x - ((⌊x⌋ + 1 : ℤ) : α)| = ⌊x⌋ + 1 - x := by
    push_cast
    rw [abs_sub_comm, abs_of_nonneg (sub_nonneg.2 hhigh.le)]
  unfold roundEven
  split_ifs with hless hmore heven
  · refine ⟨by rw [hbelow]; exact hless.le, fun heq => ?_⟩
    rw [hbelow] at heq
    exact absurd heq hless.ne
  · refine ⟨by rw [habove]; linarith, fun heq => ?_⟩
    rw [habove] at heq
    linarith
  · exact ⟨by rw [hbelow]; linarith, fun _ => heven⟩
  · exact ⟨by rw [habove]; linarith, fun _ => (Int.not_even_iff_odd.1 heven).add_one⟩

/-- Nearest integers come in the order of the numbers. -/
theorem NearestEven.mono (hx : NearestEven x m) (hy : NearestEven y n) (h : x ≤ y) : m ≤ n := by
  by_contra hlt
  rw [not_le] at hlt
  have hstep : (n : α) + 1 ≤ m := by exact_mod_cast hlt
  obtain ⟨hxlow, hxhigh⟩ := abs_le.1 hx.1
  obtain ⟨hylow, hyhigh⟩ := abs_le.1 hy.1
  -- both numbers lie halfway between the two integers
  have hxm : x - m = -(1 / 2) := by linarith
  have hyn : y - n = 1 / 2 := by linarith
  have hnext : m = n + 1 := by
    have hcast : (m : α) = n + 1 := by linarith
    exact_mod_cast hcast
  have hm : Even m := hx.2 (by rw [hxm, abs_neg, abs_of_pos one_half_pos])
  have hn : Even n := hy.2 (by rw [hyn, abs_of_pos one_half_pos])
  rw [hnext] at hm
  exact (Int.not_even_iff_odd.2 hn.add_one) hm

theorem roundEven_eq_iff : roundEven x = n ↔ NearestEven x n := by
  refine ⟨fun h => h ▸ roundEven_nearest x, fun h => ?_⟩
  exact le_antisymm ((roundEven_nearest x).mono h le_rfl) (h.mono (roundEven_nearest x) le_rfl)

theorem roundEven_mono (h : x ≤ y) : roundEven x ≤ roundEven y :=
  (roundEven_nearest x).mono (roundEven_nearest y) h

theorem roundEven_intCast (n : ℤ) : roundEven (n : α) = n := by
  refine roundEven_eq_iff.2 ⟨by simp, fun h => ?_⟩
  simp at h

/-- Rounding to a number of decimal digits. -/
def roundTo (digits : ℕ) (x : α) : α := roundEven (x * 10 ^ digits) / 10 ^ digits

theorem roundTo_mono (h : x ≤ y) : roundTo digits x ≤ roundTo digits y := by
  have hpos : (0 : α) < 10 ^ digits := by positivity
  refine div_le_div_of_nonneg_right ?_ hpos.le
  exact_mod_cast roundEven_mono (mul_le_mul_of_nonneg_right h hpos.le)

theorem roundTo_intCast (n : ℤ) : roundTo digits (n : α) = n := by
  have hscaled : (n : α) * 10 ^ digits = ((n * 10 ^ digits : ℤ) : α) := by push_cast; rfl
  rw [roundTo, hscaled, roundEven_intCast, ← hscaled]
  field_simp

theorem roundTo_zero : roundTo digits (0 : α) = 0 := by
  have h : roundTo digits ((0 : ℤ) : α) = ((0 : ℤ) : α) := roundTo_intCast 0
  simpa using h

theorem roundTo_one : roundTo digits (1 : α) = 1 := by
  have h : roundTo digits ((1 : ℤ) : α) = ((1 : ℤ) : α) := roundTo_intCast 1
  simpa using h

theorem roundTo_nonneg (h : 0 ≤ x) : 0 ≤ roundTo digits x :=
  roundTo_zero (α := α) ▸ roundTo_mono h

theorem roundTo_le_one (h : x ≤ 1) : roundTo digits x ≤ 1 :=
  roundTo_one (α := α) ▸ roundTo_mono h

/-- Rounding reaches 1 from half a unit of the last digit on. -/
theorem roundTo_eq_one_iff (hdigits : 0 < digits) :
    roundTo digits x = 1 ↔ |x - 1| ≤ 1 / (2 * 10 ^ digits) := by
  have hpos : (0 : α) < 10 ^ digits := by positivity
  have hround : roundTo digits x = 1 ↔ roundEven (x * 10 ^ digits) = 10 ^ digits := by
    rw [roundTo, div_eq_one_iff_eq hpos.ne']
    exact_mod_cast Iff.rfl
  have heven : Even (10 ^ digits : ℤ) := (by decide : Even (10 : ℤ)).pow_of_ne_zero hdigits.ne'
  have hscaled : |x * 10 ^ digits - ((10 ^ digits : ℤ) : α)| = |x - 1| * 10 ^ digits := by
    push_cast
    rw [← sub_one_mul, abs_mul, abs_of_pos hpos]
  rw [hround, roundEven_eq_iff, NearestEven, hscaled, and_iff_left fun _ => heven,
    ← le_div_iff₀ hpos, div_div]

end Ajenda.DecimalRounding
