import Slang.Token.Basic

/-!
# Program trees

One type holds expressions, statements and the absent node, because trees may also come from
outside the parser: there an expression can stand in a statement's place, or nothing at all, and a
sigil or a prompt can be any data. What such a tree does when it is run is fixed as well.
-/

namespace Slang

/-- A node of a program tree. -/
inductive Node where
  | absent
  | number (mark : Mark)
  | text (mark : Mark)
  | character (mark : Mark)
  | boolean (mark : Mark)
  | ghosted
  /-- A variable; its lexeme may carry a sigil. -/
  | identifier (mark : Mark)
  | group (inner : Node)
  | unary (operator : Mark) (operand : Node)
  | binary (left : Node) (operator : Mark) (right : Node)
  | spill (value : Node)
  /-- An expression that stands as a statement. -/
  | expression (value : Node)
  /-- A declaration; the name carries no sigil. -/
  | declaration (sigil : Json) (name : Mark) (value : Node)
  | assignment (name : Mark) (value : Node)
  | block (body : List Node)
  /-- A conditional; without an alternative its last part is absent. -/
  | conditional (condition consequent alternative : Node)
  | listen (prompt : Json) (target : Mark)
deriving Inhabited

namespace Node

/-- The forms that a present node can have. -/
inductive Shape where
  | number | text | character | boolean | ghosted | identifier | group | unary | binary
  | spill | expression | declaration | assignment | block | conditional | listen
deriving DecidableEq

/-- The form of a node. -/
def shape? : Node → Option Shape
  | .absent => none
  | .number _ => some .number
  | .text _ => some .text
  | .character _ => some .character
  | .boolean _ => some .boolean
  | .ghosted => some .ghosted
  | .identifier _ => some .identifier
  | .group _ => some .group
  | .unary _ _ => some .unary
  | .binary _ _ _ => some .binary
  | .spill _ => some .spill
  | .expression _ => some .expression
  | .declaration _ _ _ => some .declaration
  | .assignment _ _ => some .assignment
  | .block _ => some .block
  | .conditional _ _ _ => some .conditional
  | .listen _ _ => some .listen

/-- There is no node in this place. -/
def isAbsent (n : Node) : Bool :=
  n.shape?.isNone

namespace Shape

/-- Every form, in the order of their definition. -/
def all : List Shape :=
  [.number, .text, .character, .boolean, .ghosted, .identifier, .group, .unary, .binary, .spill,
   .expression, .declaration, .assignment, .block, .conditional, .listen]

/-- The name of a form where trees are written out. -/
def name : Shape → String
  | .number => "Number"
  | .text => "String"
  | .character => "CharLiteral"
  | .boolean => "Boolean"
  | .ghosted => "Ghosted"
  | .identifier => "Identifier"
  | .group => "Group"
  | .unary => "Unary"
  | .binary => "Binary"
  | .spill => "Print"
  | .expression => "ExpressionStatement"
  | .declaration => "VarDecl"
  | .assignment => "Assign"
  | .block => "Block"
  | .conditional => "If"
  | .listen => "Listen"

/-- The form with the given name. -/
def ofName? (s : String) : Option Shape :=
  all.find? fun shape => shape.name == s

end Shape

end Node

end Slang
