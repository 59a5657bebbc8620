import Slang.Json.Basic
import Slang.Number.Numeral

/-!
# Reading JSON

The grammar of JSON with three more numbers: `NaN`, `Infinity` and `-Infinity`. Of two fields with
one key the later one counts. A text with a byte order mark is refused, and so is an integer of more
digits than the limit.
-/

namespace Slang.Json

/-- Why a text cannot be read. -/
inductive ParseError where
  | malformed
  | longInteger (digits : Nat)
deriving DecidableEq

/-- The wording of an error. -/
def ParseError.message : ParseError → String
  | .malformed => "The text is no JSON value."
  | .longInteger digits =>
    "Exceeds the limit (" ++ String.ofList (natDigits digitLimit)
      ++ " digits) for integer string conversion: value has " ++ String.ofList (natDigits digits)
      ++ " digits; use sys.set_int_max_str_digits() to increase the limit"

/-- What is read from the front of a text, and the text after it. -/
abbrev Parsed (α : Type) := Except ParseError (α × List Char)

/-- Blanks between values. -/
def skipBlanks (cs : List Char) : List Char :=
  cs.dropWhile fun c => c == ' ' || c == '\t' || c == '\n' || c == '\r'

/-- The value of a hexadecimal digit. -/
def hexDigit? (c : Char) : Option Nat :=
  if '0' ≤ c && c ≤ '9' then some (c.toNat - '0'.toNat)
  else if 'a' ≤ c && c ≤ 'f' then some (c.toNat - 'a'.toNat + 10)
  else if 'A' ≤ c && c ≤ 'F' then some (c.toNat - 'A'.toNat + 10)
  else none

/-- The code unit that four hexadecimal digits denote. -/
def codeUnit? : List Char → Option (Nat × List Char)
  | a :: b :: c :: d :: later => do
    let a ← hexDigit? a
    let b ← hexDigit? b
    let c ← hexDigit? c
    let d ← hexDigit? d
    return (((a * 16 + b) * 16 + c) * 16 + d, later)
  | _ => none

/-- The character of a code unit. Half a pair is no character, and no text can hold it; one that
stands alone is replaced. -/
def unitChar (unit : Nat) : Char :=
  if 0xd800 ≤ unit && unit < 0xe000 then Char.ofNat 0xfffd else Char.ofNat unit

/-- The character that the escape of one code unit, or of a pair of them, denotes. -/
def unicodeEscape? (cs : List Char) : Option (Char × List Char) := do
  let (unit, later) ← codeUnit? cs
  if 0xd800 ≤ unit && unit < 0xdc00 then
    match later with
    | '\\' :: 'u' :: low =>
      match codeUnit? low with
      | some (second, rest) =>
        if 0xdc00 ≤ second && second < 0xe000 then
          return (Char.ofNat (0x10000 + (unit - 0xd800) * 0x400 + (second - 0xdc00)), rest)
        else return (unitChar unit, later)
      | none => return (unitChar unit, later)
    | _ => return (unitChar unit, later)
  else return (unitChar unit, later)

/-- The character that an escape denotes, after the backslash. -/
def escapeChar? : List Char → Option (Char × List Char)
  | 'u' :: later => unicodeEscape? later
  | '"' :: later => some ('"', later)
  | '\\' :: later => some ('\\', later)
  | '/' :: later => some ('/', later)
  | 'b' :: later => some (Char.ofNat 0x8, later)
  | 'f' :: later => some (Char.ofNat 0xc, later)
  | 'n' :: later => some ('\n', later)
  | 'r' :: later => some ('\r', later)
  | 't' :: later => some ('\t', later)
  | _ => none

/-- The characters of a text up to its closing quote; `steps` bounds their number. -/
def readChars : (steps : Nat) → List Char → Parsed (List Char)
  | 0, _ => .error .malformed
  | _ + 1, [] => .error .malformed
  | steps + 1, c :: later =>
    if c = '"' then .ok ([], later)
    else if c = '\\' then
      match escapeChar? later with
      | some (d, rest) => (readChars steps rest).map fun (ds, after) => (d :: ds, after)
      | none => .error .malformed
    else if c.toNat < 0x20 then .error .malformed
    else (readChars steps later).map fun (ds, after) => (c :: ds, after)

/-- A text after its opening quote. -/
def readText (cs : List Char) : Parsed String :=
  (readChars (cs.length + 1) cs).map fun (chars, later) => (String.ofList chars, later)

/-- A point and one or more digits, if there are any: the digits and the text after them. -/
def splitFraction (cs : List Char) : List Char × List Char :=
  match cs with
  | '.' :: later =>
    let digits := later.takeWhile isDigit
    if digits.isEmpty then ([], cs) else (digits, later.dropWhile isDigit)
  | _ => ([], cs)

/-- An exponent mark with one or more digits, if there is one. -/
def splitExponent (cs : List Char) : Option Int × List Char :=
  match cs with
  | c :: later =>
    let (negative, unsigned) := Numeral.splitSign later
    let digits := unsigned.takeWhile isDigit
    if (c = 'e' || c = 'E') && !digits.isEmpty then
      let value : Int := digitsValue digits
      (some (if negative then -value else value), unsigned.dropWhile isDigit)
    else (none, cs)
  | [] => (none, cs)

/-- The digits at the front of a number. A leading zero stands alone. -/
def wholeDigits : List Char → List Char
  | '0' :: _ => ['0']
  | cs => cs.takeWhile isDigit

/-- A number after its sign. -/
def readNumber (negative : Bool) (cs : List Char) : Parsed Json :=
  let digits := wholeDigits cs
  if digits.isEmpty then .error .malformed
  else
    let (fraction, afterFraction) := splitFraction (cs.drop digits.length)
    let (exponent, later) := splitExponent afterFraction
    if fraction.isEmpty && exponent.isNone then
      if digitLimit < digits.length then .error (.longInteger digits.length)
      else
        let value : Int := digitsValue digits
        .ok (.integer (if negative then -value else value), later)
    else
      let numeral : Numeral :=
        ⟨negative, digitsValue (digits ++ fraction), exponent.getD 0 - fraction.length⟩
      .ok (.number numeral.toDouble, later)

/-- The text after a word that must stand at the front. -/
def after? (word : String) (cs : List Char) : Option (List Char) :=
  if word.toList.isPrefixOf cs then some (cs.drop word.toList.length) else none

/-- The words that denote values. -/
def words : List (String × Json) :=
  [("null", .null), ("true", .boolean true), ("false", .boolean false),
   ("NaN", .number Double.nan), ("Infinity", .number Double.infinity),
   ("-Infinity", .number (-Double.infinity))]

/-- A word or a number. -/
def readScalar (cs : List Char) : Parsed Json :=
  match words.findSome? fun (word, value) => (after? word cs).map fun later => (value, later) with
  | some parsed => .ok parsed
  | none =>
    match cs with
    | '-' :: later => readNumber true later
    | _ => readNumber false cs

/-- Puts a field behind the others, or its value in the place of an earlier one. -/
def setField (fields : List (String × Json)) (key : String) (value : Json) :
    List (String × Json) :=
  if fields.any (·.1 == key) then
    fields.map fun field => if field.1 == key then (key, value) else field
  else fields ++ [(key, value)]

mutual

/-- One value; `steps` bounds the nesting. -/
def readValue : (steps : Nat) → List Char → Parsed Json
  | 0, _ => .error .malformed
  | steps + 1, cs =>
    match cs with
    | '"' :: later => (readText later).map fun (s, rest) => (.text s, rest)
    | '[' :: later =>
      match skipBlanks later with
      | ']' :: rest => .ok (.array [], rest)
      | first => (readItems steps [] first).map fun (found, rest) => (.array found, rest)
    | '{' :: later =>
      match skipBlanks later with
      | '}' :: rest => .ok (.object [], rest)
      | first => (readFields steps [] first).map fun (found, rest) => (.object found, rest)
    | _ => readScalar cs

/-- The remaining items of a list, with its closing bracket. -/
def readItems :
    (steps : Nat) → List Json → List Char → Except ParseError (List Json × List Char)
  | 0, _, _ => .error .malformed
  | steps + 1, found, cs => do
    let (item, later) ← readValue steps cs
    let found := found ++ [item]
    match skipBlanks later with
    | ']' :: rest => .ok (found, rest)
    | ',' :: rest => readItems steps found (skipBlanks rest)
    | _ => .error .malformed

/-- The remaining fields of an object, with its closing bracket. -/
def readFields :
    (steps : Nat) → List (String × Json) → List Char →
      Except ParseError (List (String × Json) × List Char)
  | 0, _, _ => .error .malformed
  | steps + 1, found, cs =>
    match cs with
    | '"' :: afterQuote => do
      let (key, afterKey) ← readText afterQuote
      match skipBlanks afterKey with
      | ':' :: afterColon =>
        let (item, later) ← readValue steps (skipBlanks afterColon)
        let found := setField found key item
        match skipBlanks later with
        | '}' :: rest => .ok (found, rest)
        | ',' :: rest => readFields steps found (skipBlanks rest)
        | _ => .error .malformed
      | _ => .error .malformed
    | _ => .error .malformed

end

/-- Reads a text that holds one value and blanks around it. -/
def parse (source : String) : Except ParseError Json := do
  let cs := source.toList
  let (j, later) ← readValue (2 * cs.length + 2) (skipBlanks cs)
  if (skipBlanks later).isEmpty then .ok j else .error .malformed

end Slang.Json
