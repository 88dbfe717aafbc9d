import Ajenda.DoubleRounding

/-!
# Readings of a clock of doubles

A clock reads finite doubles. What is computed from its readings is rounded again, and a comparison
with an exact number is exact. Natural numbers below `2 ^ 53` are doubles.
-/
namespace ClockReadings
open DoubleRounding JsonValue

/-- What the clock reads. -/
structure Reading where
  seconds : ℚ
  double : toDouble seconds = .finite seconds
  deriving DecidableEq

/-- `now - earlier`. -/
def Reading.since (now earlier : Reading) : JsonNumber := toDouble (now.seconds - earlier.seconds)

/-- `reading + seconds`. -/
def Reading.plus (reading : Reading) (seconds : ℚ) : JsonNumber :=
  toDouble (reading.seconds + seconds)

/-- `x >= limit` for an exact limit. -/
def atLeast : JsonNumber → ℚ → Bool
  | .finite x, limit => limit ≤ x
  | .infinity negative, _ => !negative
  | .nan, _ => false

@[simp] theorem atLeast_finite {x limit : ℚ} : atLeast (.finite x) limit = true ↔ limit ≤ x := by
  simp [atLeast]

theorem toDouble_zero : toDouble 0 = .finite 0 := if_pos rfl

@[simp] theorem Reading.since_self (now : Reading) : now.since now = .finite 0 := by
  rw [Reading.since, sub_self, toDouble_zero]

section Floats

/-- `x + y` for a finite `y`. -/
def add : JsonNumber → ℚ → JsonNumber
  | .finite x, y => toDouble (x + y)
  | x, _ => x

/-- `x <= y`. -/
def le : JsonNumber → JsonNumber → Bool
  | .nan, _ | _, .nan => false
  | .finite x, .finite y => x ≤ y
  | .infinity negative, .finite _ => negative
  | .finite _, .infinity negative => !negative
  | .infinity negative, .infinity negative' => negative || !negative'

/-- `float(n)`; `none` when it raises an `OverflowError`. -/
def ofInt (n : ℤ) : Option ℚ :=
  match toDouble n with
  | .finite x => some x
  | _ => none

end Floats

section Integers

theorem roundHalfEven_one (n : ℕ) : roundHalfEven n 1 = n := by
  simp [roundHalfEven, Nat.mod_one]

theorem floorLog_one {n : ℕ} (h : 0 < n) : floorLog 2 n 1 = Nat.log 2 n := by
  rw [floorLog, if_pos (Nat.one_le_iff_ne_zero.2 h.ne'), Nat.div_one]

theorem toDouble_natCast {n : ℕ} (h : n < 2 ^ 53) : toDouble n = .finite n := by
  rcases Nat.eq_zero_or_pos n with rfl | hpos
  · exact if_pos Nat.cast_zero
  obtain ⟨e, he, hlog⟩ : ∃ e ≤ 52, Nat.log 2 n = e :=
    ⟨_, Nat.lt_succ_iff.1 (Nat.log_lt_of_lt_pow hpos.ne' h), rfl⟩
  have hk : max (floorLog 2 n 1) (-1022) - 52 = -((52 - e : ℕ) : ℤ) := by
    rw [floorLog_one hpos, hlog]
    omega
  have hm : roundUnits 2 n 1 (-((52 - e : ℕ) : ℤ)) = n * 2 ^ (52 - e) := by
    rw [roundUnits]
    split_ifs with hnonneg
    · have hzero : 52 - e = 0 := by omega
      simp [hzero, roundHalfEven_one]
    · rw [neg_neg, Int.toNat_natCast, roundHalfEven_one]
  have hscale : scale 2 (n * 2 ^ (52 - e)) (-((52 - e : ℕ) : ℤ)) = n := by
    rw [scale]
    split_ifs with hnonneg
    · have hzero : 52 - e = 0 := by omega
      simp [hzero]
    · rw [neg_neg, Int.toNat_natCast, Rat.mkRat_eq_div]
      push_cast
      field_simp
  rw [toDouble, if_neg (by exact_mod_cast hpos.ne')]
  simp only [Rat.num_natCast, Rat.den_natCast, Int.natAbs_natCast, hk, hm, hscale]
  rw [if_neg, withSign, if_neg (not_lt.2 (Nat.cast_nonneg n))]
  have hlt : (n : ℚ) < 2 ^ 1024 := by
    calc (n : ℚ) < 2 ^ 53 := by exact_mod_cast h
      _ ≤ 2 ^ 1024 := pow_le_pow_right₀ one_le_two (by norm_num)
  exact not_le.2 hlt

/-- An integer of up to 53 bits is a double. -/
theorem ofInt_natCast {n : ℕ} (h : n < 2 ^ 53) : ofInt n = some (n : ℚ) := by
  rw [ofInt, Int.cast_natCast, toDouble_natCast h]

end Integers

end ClockReadings
