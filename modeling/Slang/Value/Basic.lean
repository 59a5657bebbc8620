import Slang.Json.Normal
import Slang.Json.Shown

/-!
# Values

What expressions evaluate to, how values are named and shown, which of them count as true, and when
two of them are equal. Source text denotes no lists and no objects, and its characters hold text;
other values of these kinds come from trees that hold other data.
-/

namespace Slang

/-- A value. Integers arise only through a variable that is declared to hold one. -/
inductive Value where
  | ghosted
  | boolean (value : Bool)
  | integer (value : Int)
  | number (value : Float)
  | text (value : String)
  /-- A character, kept apart from text of one letter. -/
  | character (content : Json)
  | list (items : List Json)
  | record (fields : List (String × Json))
deriving DecidableEq

namespace Value

/-- The kinds of values. -/
inductive Kind where
  | ghosted | boolean | integer | number | text | character | list | record
deriving DecidableEq

/-- The name of a kind. -/
def Kind.name : Kind → String
  | .ghosted => "ghosted"
  | .boolean => "boolean"
  | .integer => "integer"
  | .number => "number"
  | .text => "text"
  | .character => "character"
  | .list => "list"
  | .record => "dict"

/-- The kind of a value. -/
def kind : Value → Kind
  | .ghosted => .ghosted
  | .boolean _ => .boolean
  | .integer _ => .integer
  | .number _ => .number
  | .text _ => .text
  | .character _ => .character
  | .list _ => .list
  | .record _ => .record

/-- Integers and doubles are numbers. -/
def isNumber : Value → Bool
  | .integer _ | .number _ => true
  | _ => false

/-- Only `false` and the ghosted value do not count as true. -/
def isTruthy : Value → Bool
  | .ghosted => false
  | .boolean value => value
  | _ => true

/-- A double as it is printed: without fractional part, as the integer it is. -/
def numberText (x : Float) : String :=
  match Double.toInt? x with
  | some n => intText n
  | none => Double.text x

/-- Why a value cannot be printed. -/
inductive Unprintable where
  /-- A character holds no text. -/
  | content (found : Json)
  /-- An integer has more digits than can be written. -/
  | longInteger
deriving DecidableEq

/-- A value as it is printed. -/
def render : Value → Except Unprintable String
  | .ghosted => .ok "nil"
  | .boolean value => .ok (if value then "true" else "false")
  | .integer value => if isWritable value then .ok (intText value) else .error .longInteger
  | .number value => .ok (numberText value)
  | .text value => .ok value
  | .character (.text value) => .ok value
  | .character found => .error (.content found)
  | .list items => .ok (Json.array items).quoted
  | .record fields => .ok (Json.object fields).quoted

/-- The exact number that a value stands for. -/
def amount? : Value → Option Double.Exact
  | .integer value => some (.finite (value * Double.one))
  | .number value => some (Double.exact value)
  | _ => none

/-- The value with its data in normal form. -/
def normal : Value → Value
  | .character content => .character content.normal
  | .list items => .list (Json.normalItems items)
  | .record fields => .record (Json.sortFields (Json.normalFields fields))
  | value => value

/-- Numbers are equal if they stand for the same number, whatever their kinds; a NaN equals nothing.
Other values are equal if they have the same kind and the same content. -/
def equals (a b : Value) : Bool :=
  match a.amount?, b.amount? with
  | some x, some y => x = y && x ≠ .undefined
  | none, none => a.normal = b.normal
  | _, _ => false

/-- The value that plain data denote. -/
def ofJson : Json → Value
  | .null => .ghosted
  | .boolean value => .boolean value
  | .integer value => .integer value
  | .number value => .number value
  | .text value => .text value
  | .array items => .list items
  | .object fields => .record fields

end Value

end Slang
