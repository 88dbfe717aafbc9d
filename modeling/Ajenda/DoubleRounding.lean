import Ajenda.JsonValue

/-!
# Rounding to binary doubles and to decimal digits

`toDouble` rounds a rational to the nearest IEEE binary64 value, ties to even, with
gradual underflow and overflow to infinity. `toDigits` rounds a rational to a number of
significant decimal digits, ties to even, as `printf("%.14g")` does on an exact value.
-/
namespace DoubleRounding
open JsonValue

/-- The quotient `n / d` rounded to the nearest integer, ties to even. -/
def roundHalfEven (n d : ℕ) : ℕ :=
  let q := n / d
  let r := n % d
  if 2 * r < d then q else if d < 2 * r then q + 1 else if q % 2 = 0 then q else q + 1

/-- `n / d` in units of `b ^ k`, rounded to an integer. -/
def roundUnits (b n d : ℕ) (k : ℤ) : ℕ :=
  if 0 ≤ k then roundHalfEven n (d * b ^ k.toNat) else roundHalfEven (n * b ^ (-k).toNat) d

/-- `m` units of `b ^ k`. -/
def scale (b m : ℕ) (k : ℤ) : ℚ :=
  if 0 ≤ k then ((m * b ^ k.toNat : ℕ) : ℚ) else mkRat m (b ^ (-k).toNat)

/-- The largest `e` with `b ^ e ≤ n / d`, for positive `n` and `d`. -/
def floorLog (b n d : ℕ) : ℤ :=
  if d ≤ n then (Nat.log b (n / d) : ℕ)
  else
    let c := Nat.log b (d / n)
    if n * b ^ c = d then -c else -(c + 1 : ℕ)

def withSign (q r : ℚ) : ℚ := if q < 0 then -r else r

def toDouble (q : ℚ) : JsonNumber :=
  if q = 0 then .finite 0
  else
    let n := q.num.natAbs
    let k := max (floorLog 2 n q.den) (-1022) - 52
    let m := roundUnits 2 n q.den k
    if 2 ^ 1024 ≤ scale 2 m k then .infinity (decide (q < 0))
    else .finite (withSign q (scale 2 m k))

def toDigits (digits : ℕ) (q : ℚ) : ℚ :=
  if q = 0 then 0
  else
    let n := q.num.natAbs
    let k := floorLog 10 n q.den - (digits - 1 : ℕ)
    withSign q (scale 10 (roundUnits 10 n q.den k) k)

end DoubleRounding
