import Slang.Tree.Parser.Basic

/-!
# Parsing expressions

Binary operators fall into six ranks, each grouping to the left. A sign binds tighter, and a power
tighter still.

    binary 6   := binary 5 ("|" binary 5)*
    binary 5   := binary 4 ("&" binary 4)*
    binary 4   := binary 3 (("==" | "!=") binary 3)*
    binary 3   := binary 2 (("<" | ">" | "<=" | ">=") binary 2)*
    binary 2   := binary 1 (("+" | "-") binary 1)*
    binary 1   := unary (("*" | "/" | "%") unary)*
    unary      := ("!" | "-") unary | primary ("^" unary)?
    primary    := literal | variable | "(" binary 6 ")"
-/

namespace Slang.Parser

/-- The rank of a binary operator that groups to the left. -/
def rank? : Token.Kind → Option Nat
  | .times | .divide | .modulo => some 1
  | .plus | .minus => some 2
  | .less | .greater | .lessEqual | .greaterEqual => some 3
  | .equal | .notEqual => some 4
  | .and => some 5
  | .or => some 6
  | _ => none

/-- The loosest rank. -/
def loosest : Nat := 6

/-- The operators in front of an operand. -/
def isSign : Token.Kind → Bool
  | .not | .minus => true
  | _ => false

/-- The expression that a single token makes. -/
def leaf? (t : Token) : Option Node :=
  match t.kind with
  | .number => some (.number t.mark)
  | .text => some (.text t.mark)
  | .character => some (.character t.mark)
  | .fr | .cap => some (.boolean t.mark)
  | .ghosted => some .ghosted
  | .identifier | .sigilIdentifier => some (.identifier t.mark)
  | _ => none

mutual

/-- An expression whose binary operators have at most the given rank. -/
def binary (rank : Nat) (ts : List Token) : Except ParseFailure (Node × Shorter ts) :=
  match rank with
  | 0 => unary ts
  | rank + 1 => do
    let (left, afterLeft) ← binary rank ts
    let (e, rest) ← chain rank left afterLeft.val
    return (e, afterLeft.andThen rest)
termination_by (ts.length, rank + 2)
decreasing_by
  · exact Prod.Lex.right _ Nat.one_lt_two
  · exact Prod.Lex.right _ (Nat.lt_succ_self _)
  · exact Prod.Lex.left _ _ afterLeft.property

/-- Operators of rank `rank + 1` and their right operands, after a left operand. -/
def chain (rank : Nat) (left : Node) (ts : List Token) :
    Except ParseFailure (Node × Remaining ts) :=
  match ts with
  | [] => .ok (left, .all [])
  | operator :: afterOperator =>
    if rank? operator.kind = some (rank + 1) then do
      let (right, afterRight) ← binary rank afterOperator
      let (e, rest) ← chain rank (.binary left operator.mark right) afterRight.val
      return (e, (afterRight.andThen rest).widen.weaken)
    else .ok (left, .all (operator :: afterOperator))
termination_by (ts.length, 0)
decreasing_by
  · exact Prod.Lex.left _ _ (Nat.lt_succ_self _)
  · exact Prod.Lex.left _ _ (Nat.lt_succ_of_lt afterRight.property)

/-- An operand with the signs in front of it, or a power. -/
def unary (ts : List Token) : Except ParseFailure (Node × Shorter ts) :=
  match ts with
  | [] => .error (.unexpected ⟨missing, .expression⟩)
  | t :: afterSign =>
    if isSign t.kind then do
      let (operand, rest) ← unary afterSign
      return (.unary t.mark operand, rest.widen)
    else do
      let (base, afterBase) ← primary (t :: afterSign)
      let (e, rest) ← power base afterBase.val
      return (e, afterBase.andThen rest)
termination_by (ts.length, 1)
decreasing_by
  · exact Prod.Lex.left _ _ (Nat.lt_succ_self _)
  · exact Prod.Lex.right _ Nat.zero_lt_one
  · exact Prod.Lex.left _ _ afterBase.property

/-- The exponent after a base, if there is one. -/
def power (base : Node) (ts : List Token) : Except ParseFailure (Node × Remaining ts) :=
  match ts with
  | [] => .ok (base, .all [])
  | operator :: afterOperator =>
    if operator.kind = .power then do
      let (exponent, rest) ← unary afterOperator
      return (.binary base operator.mark exponent, rest.widen.weaken)
    else .ok (base, .all (operator :: afterOperator))
termination_by (ts.length, 0)
decreasing_by exact Prod.Lex.left _ _ (Nat.lt_succ_self _)

/-- A literal, a variable or an expression in parentheses. -/
def primary (ts : List Token) : Except ParseFailure (Node × Shorter ts) :=
  match ts with
  | [] => .error (.unexpected ⟨missing, .expression⟩)
  | t :: later =>
    match leaf? t with
    | some e => .ok (e, (Remaining.all later).widen)
    | none =>
      if t.kind = .leftParen then do
        let (e, afterInner) ← binary loosest later
        let (_, rest) ← expect .rightParen .closingParen afterInner.val
        return (.group e, (afterInner.andThen rest.weaken).widen)
      else .error (.unexpected ⟨t, .expression⟩)
termination_by (ts.length, 0)
decreasing_by exact Prod.Lex.left _ _ (Nat.lt_succ_self _)

end

/-- An expression. -/
def expression (ts : List Token) : Except ParseFailure (Node × Shorter ts) :=
  binary loosest ts

end Slang.Parser
