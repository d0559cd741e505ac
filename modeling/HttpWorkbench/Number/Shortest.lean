import HttpWorkbench.Number.Binary64

/-!
# The shortest decimal that reads back

Of the decimals with the fewest digits that round to a given number, the nearest to it. For
one, two, … seventeen digits the two neighbours of the number on that decimal grid are tried;
the first grid with a neighbour inside the interval of reals that round to the number wins.
-/

namespace HttpWorkbench

/-- A decimal `coefficient * 10 ^ exponent`. -/
structure Decimal where
  coefficient : Nat
  exponent : Int
  deriving DecidableEq, Repr

namespace Decimal

/-- Drop trailing zeros, at most `fuel` of them. -/
def dropZeros : Nat → Decimal → Decimal
  | 0, d => d
  | fuel + 1, d =>
    if d.coefficient % 10 = 0 ∧ d.coefficient ≠ 0
    then dropZeros fuel ⟨d.coefficient / 10, d.exponent + 1⟩ else d

/-- The same decimal with no trailing zero. -/
def trimmed (d : Decimal) : Decimal := dropZeros (Nat.toDigits 10 d.coefficient).length d

/-- The digits of the coefficient. -/
def digits (d : Decimal) : List Char := Nat.toDigits 10 d.coefficient

/-- Where the point stands, counted from the left of the digits. -/
def point (d : Decimal) : Int := d.digits.length + d.exponent

end Decimal

namespace Binary64

/-- The least `p` with `num / den < 10 ^ p`, for a positive quotient. -/
def decimalPoint (num den : Nat) : Int :=
  if den ≤ num then (Nat.toDigits 10 (num / den)).length
  else
    let length := (Nat.toDigits 10 (den / num)).length
    if den = num * Nat.pow 10 (length - 1) then 2 - (length : Int) else 1 - (length : Int)

/-- The interval of reals that round to a finite number, as a lower and an upper bound over one
denominator, and whether the bounds belong to it. -/
structure RoundingInterval where
  low : Nat
  high : Nat
  den : Nat
  closed : Bool

/-- The reals nearer to `mantissa * 2 ^ exponent` than to any other number of the format. Below a
power of two the neighbour is half as far away. -/
def roundingInterval (mantissa : Nat) (exponent : Int) : RoundingInterval :=
  let (num, den) := ratio 1 exponent
  let below := if mantissa = Nat.pow 2 52 ∧ exponent ≠ -1074 then 1 else 2
  { low := (4 * mantissa - below) * num
    high := (4 * mantissa + 2) * num
    den := 4 * den
    closed := mantissa % 2 = 0 }

/-- Whether `num / den` rounds to the number with this interval. -/
def RoundingInterval.holds (i : RoundingInterval) (num den : Nat) : Bool :=
  let low := compare (i.low * den) (num * i.den)
  let high := compare (num * i.den) (i.high * den)
  if i.closed then low != .gt && high != .gt else low == .lt && high == .lt

/-- A decimal as a fraction. -/
def decimalRatio (d : Decimal) : Nat × Nat :=
  match d.exponent with
  | .ofNat e => (d.coefficient * Nat.pow 10 e, 1)
  | .negSucc e => (d.coefficient, Nat.pow 10 (e + 1))

/-- The nearer neighbour of `num / den` on the grid of multiples of `10 ^ exponent` that rounds to
the number; between equally near ones the even coefficient. -/
def onGrid? (i : RoundingInterval) (num den : Nat) (exponent : Int) : Option Decimal :=
  let (n, d) :=
    match exponent with
    | .ofNat e => (num, den * Nat.pow 10 e)
    | .negSucc e => (num * Nat.pow 10 (e + 1), den)
  let lower := n / d
  let fits (c : Nat) : Bool :=
    let (a, b) := decimalRatio ⟨c, exponent⟩
    i.holds a b
  let nearest := roundQuotient n d
  let other := if nearest = lower then lower + 1 else lower
  if fits nearest then some ⟨nearest, exponent⟩
  else if fits other then some ⟨other, exponent⟩
  else none

/-- Try grids of `count`, `count + 1`, … digits, at most `fuel` of them. -/
def shortestFrom (i : RoundingInterval) (num den : Nat) (point : Int) : Nat → Nat → Decimal
  | 0, count => ⟨roundQuotient num den, count⟩
  | fuel + 1, count =>
    match onGrid? i num den (point - count) with
    | some d => d.trimmed
    | none => shortestFrom i num den point fuel (count + 1)

/-- The shortest decimal that reads back as the positive number `mantissa * 2 ^ exponent`. -/
def shortest (mantissa : Nat) (exponent : Int) : Decimal :=
  let (num, den) := ratio mantissa exponent
  shortestFrom (roundingInterval mantissa exponent) num den (decimalPoint num den) 17 1

/-- `num / den` with `count` significant digits, a half going to the even neighbour. -/
def significant (count num den : Nat) : Decimal :=
  let exponent := decimalPoint num den - count
  let coefficient :=
    match exponent with
    | .ofNat e => roundQuotient num (den * Nat.pow 10 e)
    | .negSucc e => roundQuotient (num * Nat.pow 10 (e + 1)) den
  Decimal.trimmed ⟨coefficient, exponent⟩

end Binary64

end HttpWorkbench
