import Slang.Json.Basic
import Slang.Number.Numeral
import Slang.Text.Quoted

/-!
# JSON values in messages

Messages show a value on one line and name its type. A text that stands by itself is shown as it is,
and a text inside a list or an object is quoted.
-/

namespace Slang.Json

/-- The type of a value, as messages name it. -/
def typeName : Json → String
  | .null => "NoneType"
  | .boolean _ => "bool"
  | .integer _ => "int"
  | .number _ => "float"
  | .text _ => "str"
  | .array _ => "list"
  | .object _ => "dict"

mutual

/-- A value with its texts quoted. -/
def quoted : Json → String
  | .null => "None"
  | .boolean value => if value then "True" else "False"
  | .integer value => intText value
  | .number value => Double.text value
  | .text value => Text.quoted value
  | .array items => "[" ++ ", ".intercalate (quotedItems items) ++ "]"
  | .object fields => "\x7b" ++ ", ".intercalate (quotedFields fields) ++ "\x7d"

/-- The items of a list. -/
def quotedItems : List Json → List String
  | [] => []
  | item :: later => quoted item :: quotedItems later

/-- The fields of an object. -/
def quotedFields : List (String × Json) → List String
  | [] => []
  | field :: later => quotedField field :: quotedFields later

/-- One field of an object. -/
def quotedField : String × Json → String
  | (key, value) => Text.quoted key ++ ": " ++ quoted value

end

/-- A value as messages show it. -/
def shown : Json → String
  | .text value => value
  | j => j.quoted

end Slang.Json
