import Slang.Number.Double

/-!
# The shortest decimal of a double

A positive double stands for all reals that round to it: an interval around its value whose ends
belong to it exactly when the significand is even. Its shortest decimal is a point of the coarsest
grid of powers of ten that meets the interval; of two such points the nearer one is taken, and in a
tie the even one. All of it is integer arithmetic.
-/

namespace Slang.Double

/-- A decimal number `digits * 10 ^ exponent`. -/
structure Decimal where
  digits : Nat
  exponent : Int
deriving DecidableEq

/-- The reals that round to one double, as fractions over a common denominator. -/
structure Interval where
  low : Nat
  value : Nat
  high : Nat
  denominator : Nat
  /-- Whether the two ends round to the double as well. -/
  closed : Bool

/-- The fraction `n / denominator` lies in the interval. -/
def Interval.contains (i : Interval) (n : Nat) : Bool :=
  if i.closed then i.low ≤ n && n ≤ i.high else i.low < n && n < i.high

/-- The interval measured in units of `10 ^ exponent`. -/
def Interval.scale (i : Interval) (exponent : Int) : Interval :=
  match exponent with
  | .ofNat e => { i with denominator := i.denominator * Nat.pow 10 e }
  | .negSucc e =>
    let factor := Nat.pow 10 (e + 1)
    { i with low := i.low * factor, value := i.value * factor, high := i.high * factor }

/-- The whole number in the interval that is nearest to its value, if there is one among the two
neighbours of the value. -/
def Interval.nearest? (i : Interval) : Option Nat :=
  let below := i.value / i.denominator
  let above := below + 1
  match i.contains (below * i.denominator), i.contains (above * i.denominator) with
  | false, false => none
  | true, false => some below
  | false, true => some above
  | true, true =>
    let down := i.value - below * i.denominator
    let up := above * i.denominator - i.value
    if down < up || (down = up && below % 2 = 0) then some below else some above

/-- Tries at most `steps` grids, from the given power of ten downwards. -/
def Interval.search (i : Interval) (exponent : Int) : (steps : Nat) → Decimal
  | 0 => ⟨(i.scale exponent).value / (i.scale exponent).denominator, exponent⟩
  | steps + 1 =>
    match (i.scale exponent).nearest? with
    | some digits => ⟨digits, exponent⟩
    | none => i.search (exponent - 1) steps

/-- The reals that round to the absolute value of a finite double other than zero. The gap to the
next smaller double is half as wide at a power of two. -/
def interval (x : Float) : Interval :=
  let unit := Nat.pow 2 (shift x)
  let value := 4 * significand x
  let gap := if fractionBits x = 0 && exponentBits x > 1 then 1 else 2
  { low := (value - gap) * unit
    value := value * unit
    high := (value + 2) * unit
    denominator := 4 * one
    closed := significand x % 2 = 0 }

/-- A power of ten above the absolute value of a finite double other than zero, at most a factor of
one hundred above it. -/
def topExponent (x : Float) : Int :=
  ((Nat.log2 (magnitude x) : Int) - 1073) * 30103 / 100000 + 1

/-- The shortest decimal that reads back as the absolute value of a finite double. -/
def shortest (x : Float) : Decimal :=
  if magnitude x = 0 then ⟨0, 0⟩ else (interval x).search (topExponent x) 20

end Slang.Double
