import Slang.Run.Fault
import Slang.Scope

/-!
# Evaluating expressions

The lexeme of a mark names a variable and may carry its sigil. A value that is given to a variable
is first made to fit the sigil.

Operands are evaluated from left to right, always both of them, and the first fault is the result.
-/

namespace Slang

/-! ## Variables -/

namespace Mark

/-- The name of the variable that a mark stands for. -/
def name (m : Mark) : Except Fault String :=
  match m.lexeme with
  | .text s => .ok (Sigil.strip s)
  | found => .error (.nameless found)

/-- The front of the lexeme, where a sigil stands if there is one. -/
def front (m : Mark) : Except Fault Json :=
  match m.lexeme with
  | .text s => .ok (.text (Sigil.leading s))
  | .array items => .ok (.array (items.take 1))
  | found => .error (.headless found)

end Mark

/-- Makes a value fit a sigil; a mismatch is a fault at the variable. -/
def fit (value : Value) (sigil : Json) (target : Mark) : Except Fault Value :=
  match Sigil.coerce value sigil with
  | .ok value => .ok value
  | .error mismatch => do
    let name ← target.name
    .error (.runtime target (.typeMismatch name mismatch))

/-- The value that an assignment gives to its variable. A character becomes what it holds for a text
variable. -/
def fitAssigned (value : Value) (target : Mark) : Except Fault Value := do
  let sigil ← target.front
  if target.kind = .sigilIdentifier then
    if sigil.isCompound then .error (.notName sigil)
    else
      match Sigil.ofJson? sigil, value with
      | none, _ => .ok value
      | some .text, .character content => fit (.ofJson content) sigil target
      | some _, _ => fit value sigil target
  else .ok value

/-! ## Values of expressions -/

/-- The outcome of an operator, with the operator's mark as the place of a failure. -/
def Fault.locate (mark : Mark) (result : Except Cause Value) : Except Fault Value :=
  result.mapError (.runtime mark)

/-- The value of a variable. -/
def Scope.read (scope : Scope) (mark : Mark) : Except Fault Value := do
  let name ← mark.name
  match scope.get? (.text name) with
  | some value => .ok value
  | none => .error (.runtime mark (.undefinedVariable name))

namespace Node

/-- The value of an expression in a scope. -/
def eval (scope : Scope) : Node → Except Fault Value
  | .number mark => .ok (.ofJson mark.literal)
  | .text mark => .ok (.ofJson mark.literal)
  | .character mark => .ok (.character mark.literal)
  | .boolean mark => .ok (.boolean (mark.kind = .fr))
  | .ghosted => .ok .ghosted
  | .identifier mark => scope.read mark
  | .group inner => eval scope inner
  | .unary operator operand => do
    let value ← eval scope operand
    Fault.locate operator (value.unary operator)
  | .binary left operator right => do
    let a ← eval scope left
    let b ← eval scope right
    Fault.locate operator (Value.binary operator a b)
  | node => .error (.misplaced .evaluate node.shape?)

end Node

end Slang
