import Slang.Json.Basic
import Slang.Number.Numeral
import Slang.Text.Quoted

/-!
# Writing JSON

Values are laid out with one item or field to a line and two blanks for each level. Texts are
written as they stand, but for the quote, the backslash and the control characters.
-/

namespace Slang.Json

/-- One character inside a written text. -/
def escape (c : Char) : List Char :=
  if c = '"' || c = '\\' then ['\\', c]
  else if c = '\n' then ['\\', 'n']
  else if c = '\r' then ['\\', 'r']
  else if c = '\t' then ['\\', 't']
  else if c.toNat = 0x8 then ['\\', 'b']
  else if c.toNat = 0xc then ['\\', 'f']
  else if c.toNat < 0x20 then '\\' :: 'u' :: Text.hex 4 c.toNat
  else [c]

/-- A text between double quotes. -/
def quote (s : String) : String :=
  String.ofList ('"' :: s.toList.flatMap escape ++ ['"'])

/-- A double; those that are not finite have names. -/
def numberText (x : Float) : String :=
  match Double.exact x with
  | .undefined => "NaN"
  | .infinite negative => if negative then "-Infinity" else "Infinity"
  | .finite _ => Double.text x

/-- A line break and the blanks of a level. -/
def newLine (level : Nat) : String :=
  "\n" ++ String.ofList (List.replicate (2 * level) ' ')

/-- Lines of a list or an object between their brackets. -/
def enclose (opening closing : String) (level : Nat) (lines : List String) : String :=
  if lines.isEmpty then opening ++ closing
  else
    opening ++ newLine (level + 1) ++ (("," ++ newLine (level + 1)).intercalate lines)
      ++ newLine level ++ closing

mutual

/-- A value whose first line stands on the given level. -/
def pretty (level : Nat) : Json → String
  | .null => "null"
  | .boolean value => if value then "true" else "false"
  | .integer value => intText value
  | .number value => numberText value
  | .text value => quote value
  | .array items => enclose "[" "]" level (prettyItems (level + 1) items)
  | .object fields => enclose "\x7b" "\x7d" level (prettyFields (level + 1) fields)

/-- The items of a list. -/
def prettyItems (level : Nat) : List Json → List String
  | [] => []
  | item :: later => pretty level item :: prettyItems level later

/-- The fields of an object. -/
def prettyFields (level : Nat) : List (String × Json) → List String
  | [] => []
  | field :: later => prettyField level field :: prettyFields level later

/-- One field of an object. -/
def prettyField (level : Nat) : String × Json → String
  | (key, value) => quote key ++ ": " ++ pretty level value

end

/-- A value laid out over several lines. -/
def render (j : Json) : String :=
  pretty 0 j

end Slang.Json
