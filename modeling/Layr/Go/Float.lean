import Mathlib.Algebra.Order.Ring.Int
import Mathlib.Data.Nat.Log

/-!
# `float64` values

A `float64` is its 64 bits. Only three operations of Go touch one here: the conversion
`int64(f)`, `strconv.ParseFloat` on a decimal text, and the formatting of JSON numbers, which
lives with the JSON encoder. Finite values are read as multiples of `2^-1074`, the spacing of
the subnormal numbers, so that rounding is integer arithmetic.
-/

namespace Layr.Go

/-- A Go `float64`, by its IEEE 754 bits. -/
structure Float64 where
  bits : BitVec 64
deriving DecidableEq, Repr

namespace Float64

/-- The sign bit. -/
def negative (f : Float64) : Bool := f.bits.msb

/-- The biased exponent field. -/
def exponent (f : Float64) : ℕ := f.bits.toNat / 2 ^ 52 % 2 ^ 11

/-- The fraction field. -/
def fraction (f : Float64) : ℕ := f.bits.toNat % 2 ^ 52

/-- Neither infinite nor NaN. -/
def isFinite (f : Float64) : Bool := f.exponent ≠ 2047

/-- The magnitude of a finite value, in units of `2^-1074`. -/
def magnitude (f : Float64) : ℕ :=
  if f.exponent = 0 then f.fraction else (2 ^ 52 + f.fraction) * 2 ^ (f.exponent - 1)

/-- Go's `int64(f)`: truncation toward zero. Outside the `int64` range the language leaves the
result to the implementation; amd64 yields the least `int64`. -/
def toInt64 (f : Float64) : ℤ :=
  let truncated : ℤ := f.magnitude / 2 ^ 1074
  let signed := if f.negative then -truncated else truncated
  if f.isFinite ∧ -2 ^ 63 ≤ signed ∧ signed < 2 ^ 63 then signed else -2 ^ 63

/-- `n / d` rounded to the nearest integer, ties to even. -/
def roundHalfEven (n d : ℕ) : ℕ :=
  let q := n / d
  let twice := 2 * (n % d)
  if twice < d ∨ (twice = d ∧ q % 2 = 0) then q else q + 1

/-- The bits of the magnitude nearest to `n / d` units of `2^-1074`, or nothing when it would
overflow to infinity. -/
def roundMagnitude (n d : ℕ) : Option ℕ :=
  let spacing := 2 ^ (Nat.log 2 (n / d) - 52)
  let rounded := roundHalfEven n (d * spacing) * spacing
  let top := Nat.log 2 rounded
  if rounded < 2 ^ 52 then some rounded
  else if top - 51 < 2047 then some ((top - 51) * 2 ^ 52 + (rounded / 2 ^ (top - 52) - 2 ^ 52))
  else none

/-- The value nearest to `± digits · 10^-scale`. -/
def ofDecimal (neg : Bool) (digits scale : ℕ) : Option Float64 :=
  (roundMagnitude (digits * 2 ^ 1074) (10 ^ scale)).map fun m =>
    ⟨BitVec.ofNat 64 (if neg then 2 ^ 63 + m else m)⟩

end Float64
end Layr.Go
