/-!
# Doubles by their exact value

Every finite double is a whole multiple of the smallest positive one, `2 ^ -1074`. Counting in that
unit turns the questions that must be answered without rounding (is the value whole, does it equal
this integer, what is the remainder) into integer arithmetic.
-/

namespace Slang.Double

/-- What a double stands for; the sign of a zero and the payload of a NaN are left out. -/
inductive Exact where
  /-- The number `units * 2 ^ -1074`. -/
  | finite (units : Int)
  | infinite (negative : Bool)
  | undefined
deriving DecidableEq

/-- How many smallest positive doubles make one. -/
def one : Nat := Nat.pow 2 1074

/-- The sign bit. -/
def isNegative (x : Float) : Bool :=
  x.toBits.toNat / Nat.pow 2 63 = 1

/-- The eleven bits of the exponent. -/
def exponentBits (x : Float) : Nat :=
  x.toBits.toNat / Nat.pow 2 52 % Nat.pow 2 11

/-- The fifty-two bits of the fraction. -/
def fractionBits (x : Float) : Nat :=
  x.toBits.toNat % Nat.pow 2 52

/-- The integer significand: the fraction, with the leading bit of a normal double. -/
def significand (x : Float) : Nat :=
  if exponentBits x = 0 then fractionBits x else Nat.pow 2 52 + fractionBits x

/-- The absolute value of a finite double is `significand * 2 ^ shift` units. -/
def shift (x : Float) : Nat :=
  exponentBits x - 1

/-- The absolute value of a finite double in units. -/
def magnitude (x : Float) : Nat :=
  significand x * Nat.pow 2 (shift x)

/-- The exact value of a double. -/
def exact (x : Float) : Exact :=
  if exponentBits x = 2047 then
    if fractionBits x = 0 then .infinite (isNegative x) else .undefined
  else .finite (if isNegative x then -(magnitude x : Int) else magnitude x)

/-- The integer that a double without fractional part stands for. -/
def toInt? (x : Float) : Option Int :=
  match exact x with
  | .finite units => if units % one = 0 then some (units / one) else none
  | _ => none

/-- The least whole number that rounds beyond the largest finite double. -/
def overflow : Nat := Nat.pow 2 1024 - Nat.pow 2 970

/-- The nearest double to an integer, ties going to the even significand; none if the integer
rounds beyond the largest finite double. -/
def ofInt? (n : Int) : Option Float :=
  if n.natAbs < overflow then some (Float.ofInt n) else none

/-- Positive infinity. -/
def infinity : Float := Float.ofBits 0x7ff0000000000000

/-- The double that is no number. -/
def nan : Float := Float.ofBits 0x7ff8000000000000

/-- The double with the given sign whose absolute value is a number of units that needs at most
fifty-three significant bits. -/
def ofUnits (negative : Bool) (units : Nat) : Float :=
  let shift := Nat.log2 units - 52
  let bits := shift * Nat.pow 2 52 + units / Nat.pow 2 shift
  Float.ofBits (UInt64.ofNat (if negative then Nat.pow 2 63 + bits else bits))

/-- The remainder of a division that goes towards zero: exact, with the sign of the dividend. -/
def remainder (x y : Float) : Float :=
  match exact x, exact y with
  | .finite _, .finite _ => ofUnits (isNegative x) (magnitude x % magnitude y)
  | .finite _, .infinite _ => x
  | _, _ => nan

/-- A power. Zero to a negative power is positive infinity, whatever the sign of the zero. -/
def power (x y : Float) : Float :=
  if x == 0 && y < 0 then infinity else Float.pow x y

end Slang.Double
