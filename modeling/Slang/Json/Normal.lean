import Slang.Json.Basic
import Slang.Number.Double

/-!
# Normal forms of JSON values

Values that mean the same have the same normal form: a truth value counts as zero or one, a double
without fractional part as the integer it is, and the order of the fields of an object does not
matter.
-/

namespace Slang.Json

/-- The normal form of a double. -/
def normalNumber (x : Float) : Json :=
  match Double.toInt? x with
  | some n => .integer n
  | none => .number (if Double.exact x = .undefined then Double.nan else x)

/-- Fields in the order of their names. -/
def sortFields (fields : List (String × Json)) : List (String × Json) :=
  fields.mergeSort fun a b => a.1 ≤ b.1

mutual

/-- The normal form of a value. -/
def normal : Json → Json
  | .boolean value => .integer (if value then 1 else 0)
  | .number value => normalNumber value
  | .array items => .array (normalItems items)
  | .object fields => .object (sortFields (normalFields fields))
  | .null => .null
  | .integer value => .integer value
  | .text value => .text value

/-- The normal forms of the items of a list. -/
def normalItems : List Json → List Json
  | [] => []
  | item :: later => normal item :: normalItems later

/-- The fields of an object with their values in normal form. -/
def normalFields : List (String × Json) → List (String × Json)
  | [] => []
  | field :: later => normalField field :: normalFields later

/-- A field with its value in normal form. -/
def normalField : String × Json → String × Json
  | (key, value) => (key, normal value)

end

end Slang.Json
