import Slang.Text.Class
import Slang.Value.Basic

/-!
# Sigils

The first character of a variable declares what the variable may hold: text, an integer or a number.
The ghosted value fits every sigil. A double without fractional part fits the integer sigil after it
has been turned into the integer.

A line that is read for a variable is taken as the variable's sigil says. For integers and numbers
blanks around the entry are ignored, and an entry that is no plain decimal notation counts as zero.
-/

namespace Slang

/-- A declared kind. -/
inductive Sigil where
  | text | integer | number
deriving DecidableEq

namespace Sigil

/-- The sigil that a text consists of. -/
def ofText? (s : String) : Option Sigil :=
  if s = "@" then some .text
  else if s = "$" then some .integer
  else if s = "%" then some .number
  else none

/-- The sigil that plain data denote. -/
def ofJson? : Json → Option Sigil
  | .text s => ofText? s
  | _ => none

/-- The kind that a sigil declares. -/
def kind : Sigil → Value.Kind
  | .text => .text
  | .integer => .integer
  | .number => .number

/-- Why a value does not fit. -/
inductive Mismatch where
  | kind (expected found : Value.Kind)
  /-- A double that is no integer. -/
  | notWhole (value : Float)
  | unknownSigil (sigil : Json)
deriving DecidableEq

/-- The wording of a mismatch. -/
def Mismatch.message : Mismatch → String
  | .kind expected found => "expected " ++ expected.name ++ ", got " ++ found.name
  | .notWhole value => "expected integer, got number " ++ Value.numberText value
  | .unknownSigil sigil => "unknown sigil " ++ sigil.quoted

/-- The integer that a double stands for. -/
def wholeNumber (x : Float) : Except Mismatch Int :=
  match Double.toInt? x with
  | some n => .ok n
  | none => .error (.notWhole x)

/-- The value fits the sigil. -/
def admits : Sigil → Value → Bool
  | _, .ghosted => true
  | .text, .text _ => true
  | .integer, .integer _ => true
  | .integer, .number x => (Double.toInt? x).isSome
  | .number, .number _ => true
  | _, _ => false

/-- Checks a value against a sigil given as plain data. -/
def check (value : Value) (sigil : Json) : Except Mismatch Unit :=
  if value = .ghosted then .ok ()
  else
    match ofJson? sigil with
    | none => .error (.unknownSigil sigil)
    | some s => if s.admits value then .ok () else .error (.kind s.kind value.kind)

/-- Turns a double for the integer sigil into an integer, and checks the value. -/
def coerce (value : Value) (sigil : Json) : Except Mismatch Value := do
  let value ← match value, ofJson? sigil with
    | .number x, some .integer => (wholeNumber x).map .integer
    | _, _ => .ok value
  check value sigil
  return value

/-- The first character of a lexeme, as text; nothing of an empty lexeme. -/
def leading (lexeme : String) : String :=
  String.ofList (lexeme.toList.take 1)

/-- The name that a lexeme denotes: without blanks around it, and without its sigil. -/
def strip (lexeme : String) : String :=
  match Text.trim lexeme.toList with
  | [] => ""
  | c :: rest => String.ofList (if (ofText? (String.singleton c)).isSome then rest else c :: rest)

end Sigil

/-! ## Entries -/

namespace Value

/-- An optional sign and digits; longer entries than the limit count as zero. -/
def integerEntry (entry : List Char) : Int :=
  let (negative, digits) := Numeral.splitSign entry
  if !digits.isEmpty && digits.all isDigit && digits.length ≤ digitLimit then
    if negative then -(digitsValue digits : Int) else digitsValue digits
  else 0

/-- A decimal number with optional sign and exponent. -/
def numberEntry (entry : List Char) : Float :=
  match Numeral.parse? entry with
  | some numeral => numeral.toDouble
  | none => 0

/-- The value of a line that is read for a variable with the given sigil. -/
def ofEntry (line : List Char) (sigil : Json) : Value :=
  match Sigil.ofJson? sigil with
  | some .integer => .integer (integerEntry (Text.trim line))
  | some .number => .number (numberEntry (Text.trim line))
  | _ => .text (String.ofList line)

end Value

end Slang
