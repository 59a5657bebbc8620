import Slang.Tree.Node
import Slang.Value.Operator

/-!
# Faults

What stops a run: an error of the program, with the mark where it happened, or a tree that is not
made the way the parser makes trees.
-/

namespace Slang

/-- What was being done to a node. -/
inductive Activity where
  | execute | evaluate
deriving DecidableEq

/-- The name of an activity. -/
def Activity.name : Activity → String
  | .execute => "execute"
  | .evaluate => "evaluate"

/-- Why a run stops. -/
inductive Fault where
  | runtime (mark : Mark) (cause : Cause)
  /-- A node stands in a place where nodes of its form have no meaning. -/
  | misplaced (activity : Activity) (shape : Option Node.Shape)
  | unprintable (reason : Value.Unprintable)
  /-- The lexeme of a variable is no text, so that it names nothing. -/
  | nameless (lexeme : Json)
  /-- The lexeme of a variable is nothing that has a first character. -/
  | headless (lexeme : Json)
  /-- A list or an object stands where a name is bound or looked up. -/
  | notName (found : Json)
deriving DecidableEq

namespace Node

/-- The form of a node as the report of a misplaced node names it. -/
def Shape.reported : Option Shape → String
  | none => "NoneType"
  | some .ghosted => "genz.ast.GhostedNull"
  | some shape => "genz.ast." ++ shape.name

end Node

/-- The wording of a fault. -/
def Fault.message : Fault → String
  | .runtime _ cause => cause.message
  | .misplaced activity shape =>
    activity.name ++ ": unexpected node type <class '" ++ Node.Shape.reported shape ++ "'>"
  | .unprintable (.content found) =>
    "__str__ returned non-string (type " ++ found.typeName ++ ")"
  | .unprintable .longInteger =>
    "Exceeds the limit (" ++ String.ofList (natDigits digitLimit)
      ++ " digits) for integer string conversion; use sys.set_int_max_str_digits() to increase the limit"
  | .nameless lexeme => "'" ++ lexeme.typeName ++ "' object has no attribute 'strip'"
  | .headless (.object _) => "unhashable type: 'slice'"
  | .headless lexeme => "'" ++ lexeme.typeName ++ "' object is not subscriptable"
  | .notName found => "unhashable type: '" ++ found.typeName ++ "'"

end Slang
