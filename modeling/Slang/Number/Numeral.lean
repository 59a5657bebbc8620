import Slang.Number.Shortest

/-!
# Numerals

How numbers are written and read. An integer is written in full. A double is written with its
shortest digits, positionally while its decimal exponent is small and with an exponent mark
otherwise. A decimal is read as the nearest double.
-/

namespace Slang

/-- An ASCII digit. -/
def isDigit (c : Char) : Bool :=
  '0' ≤ c && c ≤ '9'

/-- The number that a row of digits denotes. -/
def digitsValue (digits : List Char) : Nat :=
  digits.foldl (fun n c => 10 * n + (c.toNat - '0'.toNat)) 0

/-- The digits of a natural number. -/
def natDigits (n : Nat) : List Char :=
  Nat.toDigits 10 n

/-- The largest number of digits of an integer that is read or written. -/
def digitLimit : Nat := 4300

/-- The integer has no more digits than can be written. -/
def isWritable (n : Int) : Bool :=
  (natDigits n.natAbs).length ≤ digitLimit

/-- An integer in decimal, with a sign only if it is negative. -/
def intText (n : Int) : String :=
  String.ofList (if n < 0 then '-' :: natDigits n.natAbs else natDigits n.natAbs)

namespace Double

/-- Where positional notation ends and how an exponent is written. -/
structure Layout where
  /-- The least decimal exponent that is written positionally. -/
  least : Int
  /-- The least decimal exponent above those that are written positionally. -/
  bound : Int
  /-- The least number of digits of a written exponent. -/
  exponentWidth : Nat

/-- Doubles are written positionally from `0.0001` up to below `10 ^ 16`, and exponents have two
digits at least. -/
def layout : Layout := ⟨-4, 16, 2⟩

/-- A row of zeros. -/
def zeros (n : Nat) : List Char :=
  List.replicate n '0'

/-- Digits and a point, for a number whose first digit has the given decimal exponent. -/
def positional (digits : List Char) (exponent : Int) : List Char :=
  if exponent < 0 then
    '0' :: '.' :: zeros (-exponent - 1).toNat ++ digits
  else
    let whole := exponent.toNat + 1
    if digits.length ≤ whole then digits ++ zeros (whole - digits.length) ++ ['.', '0']
    else digits.take whole ++ '.' :: digits.drop whole

/-- Digits with a point after the first, and a signed exponent. -/
def scientific (l : Layout) (digits : List Char) (exponent : Int) : List Char :=
  let fraction := digits.drop 1
  let power := natDigits exponent.natAbs
  digits.take 1 ++ (if fraction.isEmpty then [] else '.' :: fraction)
    ++ 'e' :: (if exponent < 0 then '-' else '+')
    :: zeros (l.exponentWidth - power.length) ++ power

/-- A decimal number laid out in digits. -/
def Decimal.write (l : Layout) (d : Decimal) : List Char :=
  let digits := natDigits d.digits
  let exponent := d.exponent + digits.length - 1
  if l.least ≤ exponent && exponent < l.bound then positional digits exponent
  else scientific l digits exponent

/-- The shortest text that reads back as the double. -/
def text (x : Float) : String :=
  match exact x with
  | .undefined => "nan"
  | .infinite negative => if negative then "-inf" else "inf"
  | .finite _ =>
    let digits := (shortest x).write layout
    String.ofList (if isNegative x then '-' :: digits else digits)

/-- The double nearest to a decimal; beyond the largest finite double it is infinity. Exponents far
outside the range of doubles are settled without computing the power. -/
def ofDecimal (d : Decimal) : Float :=
  if d.digits = 0 then 0
  else if d.exponent > 400 then infinity
  else if d.exponent < -(400 + Nat.log2 d.digits : Int) then 0
  else Float.ofModel (Float.Model.ofScientific d.digits d.exponent)

end Double

/-- A sign and a decimal number: what a numeral says before it is rounded. -/
structure Numeral where
  negative : Bool
  decimal : Double.Decimal
deriving DecidableEq

namespace Numeral

/-- The double nearest to a numeral; a negative zero keeps its sign. -/
def toDouble (n : Numeral) : Float :=
  if n.negative then -Double.ofDecimal n.decimal else Double.ofDecimal n.decimal

/-- Splits off an optional sign. -/
def splitSign : List Char → Bool × List Char
  | '-' :: cs => (true, cs)
  | '+' :: cs => (false, cs)
  | cs => (false, cs)

/-- An exponent mark, an optional sign and one or more digits; no text at all is the exponent
zero. -/
def exponent? : List Char → Option Int
  | [] => some 0
  | c :: cs =>
    let (negative, digits) := splitSign cs
    if (c = 'e' || c = 'E') && !digits.isEmpty && digits.all isDigit then
      some (if negative then -(digitsValue digits : Int) else digitsValue digits)
    else none

/-- Reads an optional sign, digits with an optional point before, between or after them, and an
optional exponent. -/
def parse? (cs : List Char) : Option Numeral :=
  let (negative, unsigned) := splitSign cs
  let whole := unsigned.takeWhile isDigit
  let afterWhole := unsigned.dropWhile isDigit
  let (fraction, rest) :=
    match afterWhole with
    | '.' :: more => (more.takeWhile isDigit, more.dropWhile isDigit)
    | _ => ([], afterWhole)
  if whole.isEmpty && fraction.isEmpty then none
  else (exponent? rest).map fun exponent =>
    ⟨negative, digitsValue (whole ++ fraction), exponent - fraction.length⟩

end Numeral

end Slang
