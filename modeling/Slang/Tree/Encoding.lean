import Slang.Tree.Node

/-!
# Trees as JSON

A node is an object that names its form and holds its parts; marks are kept whole, so that a tree
that is read back reports errors on the same lines. An absent node is `null`.
-/

namespace Slang

namespace Mark

/-- A mark as a JSON object. -/
def toJson (m : Mark) : Json :=
  .object
    [("type", .text m.kind.name), ("lexeme", m.lexeme), ("literal", m.literal), ("line", m.line)]

end Mark

namespace Node

/-- An object of the given form. -/
def shaped (shape : Shape) (fields : List (String × Json)) : Json :=
  .object (("type", .text shape.name) :: fields)

mutual

/-- A node as a JSON value. -/
def toJson : Node → Json
  | .absent => .null
  | .number mark => shaped .number [("token", mark.toJson)]
  | .text mark => shaped .text [("token", mark.toJson)]
  | .character mark => shaped .character [("token", mark.toJson)]
  | .boolean mark => shaped .boolean [("token", mark.toJson)]
  | .ghosted => shaped .ghosted []
  | .identifier mark => shaped .identifier [("token", mark.toJson)]
  | .group inner => shaped .group [("expression", toJson inner)]
  | .unary operator operand =>
    shaped .unary [("operator", operator.toJson), ("operand", toJson operand)]
  | .binary left operator right =>
    shaped .binary
      [("left", toJson left), ("operator", operator.toJson), ("right", toJson right)]
  | .spill value => shaped .spill [("expression", toJson value)]
  | .expression value => shaped .expression [("expression", toJson value)]
  | .declaration sigil name value =>
    shaped .declaration
      [("sigil", sigil), ("name", name.toJson), ("initializer", toJson value)]
  | .assignment name value => shaped .assignment [("name", name.toJson), ("value", toJson value)]
  | .block body => shaped .block [("statements", .array (listToJson body))]
  | .conditional condition consequent alternative =>
    shaped .conditional
      [("condition", toJson condition), ("then_branch", toJson consequent),
       ("else_branch", toJson alternative)]
  | .listen prompt target => shaped .listen [("prompt", prompt), ("target", target.toJson)]

/-- Nodes as JSON values. -/
def listToJson : List Node → List Json
  | [] => []
  | node :: later => toJson node :: listToJson later

end

/-- A program as a JSON object. -/
def programToJson (program : List Node) : Json :=
  .object [("type", .text "Program"), ("body", .array (listToJson program))]

end Node

end Slang
