import Slang.Token.Basic
import Slang.Value.Sigil

/-!
# Operators

Arithmetic and comparison take numbers and compute with doubles; `+` also joins two texts. Equality
and the logical operators take any two values. The causes of failure are listed in the order in
which they are looked for: the left operand, the right operand, its size, a zero divisor.
-/

namespace Slang

/-- Why the evaluation of a node fails. -/
inductive Cause where
  | undefinedVariable (name : String)
  | leftOperand (operator expected : String) (found : Value.Kind)
  | rightOperand (operator expected : String) (found : Value.Kind)
  | tooLarge (operator : String)
  | divisionByZero
  | moduloByZero
  | signOperand (found : Value.Kind)
  | unknownSign (lexeme : String)
  | unknownOperator (lexeme : String)
  | typeMismatch (name : String) (mismatch : Sigil.Mismatch)
deriving DecidableEq

/-- The wording of a cause. -/
def Cause.message : Cause → String
  | .undefinedVariable name => "Undefined variable '" ++ name ++ "'."
  | .leftOperand operator expected found =>
    "Left operand of '" ++ operator ++ "' must be " ++ expected ++ ", got " ++ found.name ++ "."
  | .rightOperand operator expected found =>
    "Right operand of '" ++ operator ++ "' must be " ++ expected ++ ", got " ++ found.name ++ "."
  | .tooLarge operator => "Operand of '" ++ operator ++ "' is too large for a number."
  | .divisionByZero => "Division by zero."
  | .moduloByZero => "Modulo by zero."
  | .signOperand found => "Operand must be a number, got " ++ found.name ++ "."
  | .unknownSign lexeme => "Unsupported unary operator '" ++ lexeme ++ "'."
  | .unknownOperator lexeme => "Unknown operator '" ++ lexeme ++ "'."
  | .typeMismatch name mismatch =>
    "Type mismatch for '" ++ name ++ "': " ++ mismatch.message ++ "."

namespace Value

/-- The double nearest to a number; none for an integer that is too large and for what is no
number. -/
def toDouble? : Value → Option Float
  | .integer n => Double.ofInt? n
  | .number x => some x
  | _ => none

/-- The two operands of an arithmetic operator or a comparison as doubles. -/
def operands (operator : String) (a b : Value) : Except Cause (Float × Float) :=
  if !a.isNumber then .error (.leftOperand operator "a number" a.kind)
  else if !b.isNumber then .error (.rightOperand operator "a number" b.kind)
  else
    match a.toDouble?, b.toDouble? with
    | some x, some y => .ok (x, y)
    | _, _ => .error (.tooLarge operator)

/-- A sum of numbers, or two texts joined. -/
def add (operator : String) (a b : Value) : Except Cause Value :=
  match a, b with
  | .text s, .text t => .ok (.text (s ++ t))
  | .text _, _ => .error (.rightOperand "+" "text" b.kind)
  | _, _ =>
    if !a.isNumber then .error (.leftOperand "+" "a number or text" a.kind)
    else if !b.isNumber then .error (.rightOperand "+" "a number" b.kind)
    else do
      let (x, y) ← operands operator a b
      return .number (x + y)

/-- A quotient. -/
def divide (x y : Float) : Except Cause Value :=
  if y == 0 then .error .divisionByZero else .ok (.number (x / y))

/-- A remainder; that of an infinity is undefined. -/
def modulo (x y : Float) : Except Cause Value :=
  if y == 0 then .error .moduloByZero else .ok (.number (Double.remainder x y))

/-- A binary operator that computes with doubles. -/
def numeric? : Token.Kind → Option (Float → Float → Except Cause Value)
  | .minus => some fun x y => .ok (.number (x - y))
  | .times => some fun x y => .ok (.number (x * y))
  | .divide => some divide
  | .modulo => some modulo
  | .power => some fun x y => .ok (.number (Double.power x y))
  | .less => some fun x y => .ok (.boolean (x < y))
  | .greater => some fun x y => .ok (.boolean (y < x))
  | .lessEqual => some fun x y => .ok (.boolean (x ≤ y))
  | .greaterEqual => some fun x y => .ok (.boolean (y ≤ x))
  | _ => none

/-- A binary operator that takes any two values. -/
def general? : Token.Kind → Option (Value → Value → Bool)
  | .equal => some equals
  | .notEqual => some fun a b => !equals a b
  | .and => some fun a b => a.isTruthy && b.isTruthy
  | .or => some fun a b => a.isTruthy || b.isTruthy
  | _ => none

/-- Applies a binary operator. -/
def binary (operator : Mark) (a b : Value) : Except Cause Value :=
  if operator.kind = .plus then add operator.lexeme.shown a b
  else
    match numeric? operator.kind, general? operator.kind with
    | some f, _ => do
      let (x, y) ← operands operator.lexeme.shown a b
      f x y
    | none, some f => .ok (.boolean (f a b))
    | none, none => .error (.unknownOperator operator.lexeme.shown)

/-- Changes the sign of a number; an integer stays an integer. -/
def negate : Value → Except Cause Value
  | .integer n => .ok (.integer (-n))
  | .number x => .ok (.number (-x))
  | value => .error (.signOperand value.kind)

/-- Applies an operator that stands in front of its operand. -/
def unary (operator : Mark) (value : Value) : Except Cause Value :=
  if operator.kind = .not then .ok (.boolean (!value.isTruthy))
  else if operator.kind = .minus then value.negate
  else .error (.unknownSign operator.lexeme.shown)

end Value

end Slang
