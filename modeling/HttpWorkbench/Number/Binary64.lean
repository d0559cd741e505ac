/-!
# Double-precision numbers

The numbers of the 64-bit binary interchange format as exact data: a finite one is
`mantissa * 2 ^ exponent`, in the one form where the mantissa has 53 bits unless the exponent
is the least. Every operation is exact arithmetic on naturals followed by one rounding to
nearest, ties to even, so nothing here depends on the machine. A value that is no number has no
size to compare, yet a list or a map that holds it knows it again, by its mark.
-/

namespace HttpWorkbench

namespace Binary64

/-- The form that each finite magnitude has exactly once. -/
def Canonical (mantissa : Nat) (exponent : Int) : Prop :=
  mantissa < Nat.pow 2 53 ∧ -1074 ≤ exponent ∧ exponent ≤ 971 ∧
    (Nat.pow 2 52 ≤ mantissa ∨ exponent = -1074)

instance (mantissa : Nat) (exponent : Int) : Decidable (Canonical mantissa exponent) :=
  inferInstanceAs (Decidable (_ ∧ _ ∧ _ ∧ (_ ∨ _)))

end Binary64

/-- Which of the values that are no number one is. -/
inductive NanMark where
  /-- The one that every document means. -/
  | document
  /-- One that a caller handed over; no two of them are the same. -/
  | given (number : Nat)
  deriving DecidableEq, Repr

/-- A double-precision number. -/
inductive Binary64 where
  | nan (mark : NanMark)
  | infinite (negative : Bool)
  | finite (negative : Bool) (mantissa : Nat) (exponent : Int)
      (canonical : Binary64.Canonical mantissa exponent)
  deriving DecidableEq

namespace Binary64

/-- The zero of either sign. -/
def zero (negative : Bool) : Binary64 := .finite negative 0 (-1074) (by decide)

instance : Inhabited Binary64 := ⟨zero false⟩

/-- The quotient rounded to the nearest natural, a half to the even neighbour. -/
def roundQuotient (num den : Nat) : Nat :=
  let q := num / den
  let r := num % den
  if den < 2 * r ∨ (2 * r = den ∧ q % 2 = 1) then q + 1 else q

/-- `num / den * 2 ^ (-exponent)` rounded to a natural. -/
def scaledQuotient (num den : Nat) (exponent : Int) : Nat :=
  match exponent with
  | .ofNat e => roundQuotient num (den * Nat.pow 2 e)
  | .negSucc e => roundQuotient (num * Nat.pow 2 (e + 1)) den

/-- The number of binary digits; none for zero. -/
def bitLength (n : Nat) : Nat := if n = 0 then 0 else n.log2 + 1

/-- The exponent at which the quotient has 53 binary digits before the point, or one too many
when the estimate from the lengths is low; never below the least exponent. -/
def quotientExponent (num den : Nat) : Int :=
  let estimate : Int := (bitLength num : Int) - bitLength den - 53
  let reached : Bool :=
    match estimate with
    | .ofNat e => Nat.pow 2 53 * (den * Nat.pow 2 e) ≤ num
    | .negSucc e => Nat.pow 2 53 * den ≤ num * Nat.pow 2 (e + 1)
  max (if reached then estimate + 1 else estimate) (-1074)

/-- The number nearest to `num / den`, with the sign given; too large a quotient is infinite. -/
def ofRatio (negative : Bool) (num den : Nat) : Binary64 :=
  if num = 0 then zero negative
  else
    let exponent := quotientExponent num den
    let mantissa := scaledQuotient num den exponent
    let (m, e) :=
      if mantissa = Nat.pow 2 53 then (Nat.pow 2 52, exponent + 1) else (mantissa, exponent)
    if h : Canonical m e then .finite negative m e h else .infinite negative

/-- A finite magnitude as a fraction. -/
def ratio (mantissa : Nat) (exponent : Int) : Nat × Nat :=
  match exponent with
  | .ofNat e => (mantissa * Nat.pow 2 e, 1)
  | .negSucc e => (mantissa, Nat.pow 2 (e + 1))

/-- The number nearest to `coefficient * 10 ^ exponent`. Exponents far outside the range of the
format are decided by the number of digits alone. -/
def ofDecimal (negative : Bool) (coefficient : Nat) (exponent : Int) : Binary64 :=
  if coefficient = 0 then zero negative
  else
    let magnitude := ((Nat.toDigits 10 coefficient).length : Int) + exponent
    if 400 < magnitude then .infinite negative
    else if magnitude < -400 then zero negative
    else
      match exponent with
      | .ofNat e => ofRatio negative (coefficient * Nat.pow 10 e) 1
      | .negSucc e => ofRatio negative coefficient (Nat.pow 10 (e + 1))

/-- Multiply by a positive natural. -/
def scale (x : Binary64) (factor : Nat) : Binary64 :=
  match x with
  | .nan mark => .nan mark
  | .infinite s => .infinite s
  | .finite s m e _ => let (num, den) := ratio m e; ofRatio s (num * factor) den

/-- Divide by a positive natural. -/
def divide (x : Binary64) (divisor : Nat) : Binary64 :=
  match x with
  | .nan mark => .nan mark
  | .infinite s => .infinite s
  | .finite s m e _ => let (num, den) := ratio m e; ofRatio s num (den * divisor)

/-- The number nearest to an integer, unless that is beyond the largest finite one. -/
def ofInt? (n : Int) : Option Binary64 :=
  match ofRatio (n < 0) n.natAbs 1 with
  | .infinite _ => none
  | x => some x

/-- The number nearest to an integer divided by a positive natural, if it is finite. -/
def ofQuotient? (n : Int) (divisor : Nat) : Option Binary64 :=
  match ofRatio (n < 0) n.natAbs divisor with
  | .infinite _ => none
  | x => some x

/-- Whether the number is a zero of either sign. -/
def isZero : Binary64 → Bool
  | .finite _ m _ _ => m == 0
  | _ => false

/-- A finite number as a signed numerator over a positive denominator. -/
def signedRatio (negative : Bool) (mantissa : Nat) (exponent : Int) : Int × Nat :=
  let (num, den) := ratio mantissa exponent
  (if negative then -(num : Int) else num, den)

/-- Order of two numbers; none when one of them is no number. -/
def compare? (x y : Binary64) : Option Ordering :=
  match x, y with
  | .nan _, _ => none
  | _, .nan _ => none
  | .infinite s, .infinite t =>
    some (if s = t then .eq else if s then .lt else .gt)
  | .infinite s, .finite .. => some (if s then .lt else .gt)
  | .finite .., .infinite t => some (if t then .gt else .lt)
  | .finite s m e _, .finite t n f _ =>
    let (a, b) := signedRatio s m e
    let (c, d) := signedRatio t n f
    some (compare (a * d) (c * b))

/-- Order of a number and an integer, compared exactly. -/
def compareInt? (x : Binary64) (n : Int) : Option Ordering :=
  match x with
  | .nan _ => none
  | .infinite s => some (if s then .lt else .gt)
  | .finite s m e _ =>
    let (a, b) := signedRatio s m e
    some (compare a (n * b))

/-- Whether two numbers are of equal size. -/
def isEqual (x y : Binary64) : Bool := x.compare? y == some .eq

/-- Whether a list or a map takes two numbers for the same: they are of equal size, or one and the
same value that is no number. -/
def same (x y : Binary64) : Bool :=
  match x, y with
  | .nan mark, .nan other => mark == other
  | x, y => x.isEqual y

@[simp] theorem same_self (x : Binary64) : x.same x = true := by
  cases x <;> simp [same, isEqual, compare?, signedRatio]

end Binary64

end HttpWorkbench
