import Slang.Tree.Parser.Expression

/-!
# Parsing statements

A statement is recognised by its first token, an assignment by its first two. Statements follow each
other without separators. A block ends at any of the three closing words; at the end of the tokens
it may be left open.
-/

namespace Slang.Parser

/-- The name that a sigil identifier declares. -/
def declaredName (t : Token) : Token :=
  ⟨.identifier, String.ofList (t.lexeme.toList.drop 1), .absent, t.line⟩

/-- The sigil of a sigil identifier, which is the first character of its lexeme. -/
def declaredSigil (t : Token) : Except ParseFailure String :=
  match t.lexeme.toList with
  | [] => .error (.noSigil t)
  | sigil :: _ => .ok (String.singleton sigil)

/-- The rest of a declaration, after its variable. -/
def declaration (target : Token) (ts : List Token) :
    Except ParseFailure (Node × Shorter ts) := do
  let (_, afterAs) ← expect .asWord .asInDeclaration ts
  let (value, rest) ← expression afterAs.val
  let sigil ← declaredSigil target
  return (.declaration (.text sigil) (declaredName target).mark value,
    afterAs.andThen rest.weaken)

/-- The rest of an assignment, after its variable. -/
def assignment (target : Token) (ts : List Token) :
    Except ParseFailure (Node × Shorter ts) := do
  let (_, afterAs) ← expect .asWord .asInAssignment ts
  let (value, rest) ← expression afterAs.val
  return (.assignment target.mark value, afterAs.andThen rest.weaken)

/-- The rest of a request for input, after its keyword. -/
def listen (ts : List Token) : Except ParseFailure (Node × Shorter ts) := do
  let (prompt, afterPrompt) ← expect .text .prompt ts
  let (_, afterAs) ← expect .asWord .asAfterPrompt afterPrompt.val
  let (target, rest) ← expect .sigilIdentifier .inputVariable afterAs.val
  return (.listen prompt.literal.toJson target.mark,
    afterPrompt.andThen (afterAs.andThen rest.weaken).weaken)

/-- The first of the tokens is the given kind of word. -/
def startsWith (kind : Token.Kind) : List Token → Bool
  | t :: _ => t.kind = kind
  | [] => false

mutual

/-- One statement. -/
def statement (ts : List Token) : Except ParseFailure (Node × Shorter ts) :=
  match ts with
  | [] => .error (.unexpected ⟨missing, .expression⟩)
  | t :: later =>
    match t.kind with
    | .spill => do
      let (value, rest) ← expression later
      return (.spill value, rest.widen)
    | .listen => do
      let (request, rest) ← listen later
      return (request, rest.widen)
    | .tea => do
      let (target, afterTarget) ← expect .sigilIdentifier .sigilVariable later
      let (declared, rest) ← declaration target afterTarget.val
      return (declared, (afterTarget.andThen rest.weaken).widen)
    | .sigilIdentifier => do
      let (declared, rest) ← declaration t later
      return (declared, rest.widen)
    | .colon => do
      let (body, rest) ← block later
      return (.block body, rest.widen)
    | .bet => do
      let (condition, afterCondition) ← expression later
      let (consequent, afterConsequent) ← statement afterCondition.val
      let (alternative, rest) ← alternative afterConsequent.val
      return (.conditional condition consequent alternative,
        (afterCondition.andThen (afterConsequent.andThen rest).weaken).widen)
    | kind =>
      if kind = .identifier && startsWith .asWord later then do
        let (assigned, rest) ← assignment t later
        return (assigned, rest.widen)
      else do
        let (value, rest) ← expression (t :: later)
        return (.expression value, rest)
termination_by (ts.length, 0)
decreasing_by
  · exact Prod.Lex.left _ _ (Nat.lt_succ_self _)
  · exact Prod.Lex.left _ _ (Nat.lt_succ_of_lt afterCondition.property)
  · exact Prod.Lex.left _ _
      (Nat.lt_succ_of_lt (Nat.lt_trans afterConsequent.property afterCondition.property))

/-- The statement after the word for the other case, if that word comes next. -/
def alternative (ts : List Token) : Except ParseFailure (Node × Remaining ts) :=
  match ts with
  | [] => .ok (.absent, .all [])
  | t :: later =>
    if t.kind = .deadass then do
      let (otherwise, rest) ← statement later
      return (otherwise, rest.widen.weaken)
    else .ok (.absent, .all (t :: later))
termination_by (ts.length, 0)
decreasing_by
  · exact Prod.Lex.left _ _ (Nat.lt_succ_self _)

/-- The statements of a block, with the word that closes it. -/
def block (ts : List Token) : Except ParseFailure (List Node × Remaining ts) :=
  match ts with
  | [] => .ok ([], .all [])
  | t :: later =>
    if t.kind.isTerminator then .ok ([], (Remaining.all later).widen.weaken)
    else if t.kind = .endOfFile then .ok ([], .all (t :: later))
    else do
      let (first, afterFirst) ← statement (t :: later)
      let (others, rest) ← block afterFirst.val
      return (first :: others, (afterFirst.andThen rest).weaken)
termination_by (ts.length, 1)
decreasing_by
  · exact Prod.Lex.right _ Nat.zero_lt_one
  · exact Prod.Lex.left _ _ afterFirst.property

end

/-- The statements of a program, up to the end mark. -/
def program (ts : List Token) : Except ParseFailure (List Node) :=
  match ts with
  | [] => .ok []
  | t :: later =>
    if t.kind = .endOfFile then .ok []
    else do
      let (first, afterFirst) ← statement (t :: later)
      let others ← program afterFirst.val
      return first :: others
termination_by ts.length
decreasing_by exact afterFirst.property

end Slang.Parser
