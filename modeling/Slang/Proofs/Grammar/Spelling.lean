import Slang.Tree.Node

/-!
# The grammar of programs

A tree keeps the tokens that carry a meaning of their own.  The words, parentheses and closing words
around them are not kept.  This module says which rows of tokens spell a tree, without any reference
to the functions that parse.

Several trees may be spelled by one row of tokens.  The second part of the module singles out the
trees that respect the levels of the operators and the places where one statement ends and the next
one starts.
-/

namespace Slang.Grammar

/-! ## Kinds of tokens by their place in the grammar -/

/-- The levels of the binary operators that group to the left: factor, term, comparison, equality,
conjunction and disjunction, from the tightest to the loosest. -/
def level? : Token.Kind → Option Nat
  | .times | .divide | .modulo => some 1
  | .plus | .minus => some 2
  | .less | .greater | .lessEqual | .greaterEqual => some 3
  | .equal | .notEqual => some 4
  | .and => some 5
  | .or => some 6
  | _ => none

/-- A binary operator of one of the levels, or the power. -/
def IsBinary (kind : Token.Kind) : Prop :=
  (level? kind).isSome ∨ kind = .power

/-- An operator that stands in front of its operand. -/
def IsSign (kind : Token.Kind) : Prop :=
  kind = .not ∨ kind = .minus

/-- A word that closes a block. -/
def Closes (kind : Token.Kind) : Prop :=
  kind = .endWord ∨ kind = .endIf ∨ kind = .endLoop

/-! ## Spelling -/

/-- What a tree keeps of a declared variable: an identifier without the sigil. -/
def nameOf (target : Token) : Mark :=
  ⟨.identifier, .text (String.ofList (target.lexeme.toList.drop 1)), .null, .integer target.line⟩

/-- The tokens that spell an expression, from left to right. -/
inductive SpellsExpression : Node → List Token → Prop
  | number {t : Token} (h : t.kind = .number) :
      SpellsExpression (.number t.mark) [t]
  | text {t : Token} (h : t.kind = .text) :
      SpellsExpression (.text t.mark) [t]
  | character {t : Token} (h : t.kind = .character) :
      SpellsExpression (.character t.mark) [t]
  | boolean {t : Token} (h : t.kind = .fr ∨ t.kind = .cap) :
      SpellsExpression (.boolean t.mark) [t]
  | ghosted {t : Token} (h : t.kind = .ghosted) :
      SpellsExpression .ghosted [t]
  | identifier {t : Token} (h : t.kind = .identifier ∨ t.kind = .sigilIdentifier) :
      SpellsExpression (.identifier t.mark) [t]
  | group {opening closing : Token} {inner : Node} {tokens : List Token}
      (hopening : opening.kind = .leftParen) (hclosing : closing.kind = .rightParen)
      (hinner : SpellsExpression inner tokens) :
      SpellsExpression (.group inner) (opening :: (tokens ++ [closing]))
  | unary {operator : Token} {operand : Node} {tokens : List Token}
      (hoperator : IsSign operator.kind) (hoperand : SpellsExpression operand tokens) :
      SpellsExpression (.unary operator.mark operand) (operator :: tokens)
  | binary {operator : Token} {left right : Node} {before after : List Token}
      (hoperator : IsBinary operator.kind)
      (hleft : SpellsExpression left before) (hright : SpellsExpression right after) :
      SpellsExpression (.binary left operator.mark right) (before ++ operator :: after)

mutual

/-- The tokens that spell a statement in which every block is closed. -/
inductive Spells : Node → List Token → Prop
  | spill {word : Token} {value : Node} {tokens : List Token}
      (hword : word.kind = .spill) (hvalue : SpellsExpression value tokens) :
      Spells (.spill value) (word :: tokens)
  | expression {value : Node} {tokens : List Token} (hvalue : SpellsExpression value tokens) :
      Spells (.expression value) tokens
  /-- The first character of the variable is its sigil, so its lexeme is not empty. -/
  | declaration {target word : Token} {sigil : Char} {value : Node} {tokens : List Token}
      (htarget : target.kind = .sigilIdentifier)
      (hsigil : target.lexeme.toList.head? = some sigil) (hword : word.kind = .asWord)
      (hvalue : SpellsExpression value tokens) :
      Spells (.declaration (.text (String.singleton sigil)) (nameOf target) value)
        (target :: word :: tokens)
  /-- The word in front of a declaration may be there or not. -/
  | teaDeclaration {tea target word : Token} {sigil : Char} {value : Node} {tokens : List Token}
      (htea : tea.kind = .tea) (htarget : target.kind = .sigilIdentifier)
      (hsigil : target.lexeme.toList.head? = some sigil) (hword : word.kind = .asWord)
      (hvalue : SpellsExpression value tokens) :
      Spells (.declaration (.text (String.singleton sigil)) (nameOf target) value)
        (tea :: target :: word :: tokens)
  | assignment {target word : Token} {value : Node} {tokens : List Token}
      (htarget : target.kind = .identifier) (hword : word.kind = .asWord)
      (hvalue : SpellsExpression value tokens) :
      Spells (.assignment target.mark value) (target :: word :: tokens)
  | listen {listen prompt word target : Token}
      (hlisten : listen.kind = .listen) (hprompt : prompt.kind = .text)
      (hword : word.kind = .asWord) (htarget : target.kind = .sigilIdentifier) :
      Spells (.listen prompt.literal.toJson target.mark) [listen, prompt, word, target]
  | block {opening closing : Token} {body : List Node} {tokens : List Token}
      (hopening : opening.kind = .colon) (hclosing : Closes closing.kind)
      (hbody : SpellsAll body tokens) :
      Spells (.block body) (opening :: (tokens ++ [closing]))
  | conditional {bet : Token} {condition consequent : Node} {test first : List Token}
      (hbet : bet.kind = .bet) (hcondition : SpellsExpression condition test)
      (hconsequent : Spells consequent first) :
      Spells (.conditional condition consequent .absent) (bet :: (test ++ first))
  | alternative {bet deadass : Token} {condition consequent otherwise : Node}
      {test first second : List Token}
      (hbet : bet.kind = .bet) (hcondition : SpellsExpression condition test)
      (hconsequent : Spells consequent first) (hdeadass : deadass.kind = .deadass)
      (hotherwise : Spells otherwise second) :
      Spells (.conditional condition consequent otherwise)
        (bet :: (test ++ (first ++ deadass :: second)))

/-- The tokens that spell statements one after the other. -/
inductive SpellsAll : List Node → List Token → Prop
  | nil : SpellsAll [] []
  | cons {node : Node} {later : List Node} {first rest : List Token}
      (hnode : Spells node first) (hlater : SpellsAll later rest) :
      SpellsAll (node :: later) (first ++ rest)

end

/-- The tokens that spell a program, where closing words may be missing at the end. -/
def SpellsProgram (program : List Node) (tokens : List Token) : Prop :=
  ∃ missing, (∀ t ∈ missing, Closes t.kind) ∧ SpellsAll program (tokens ++ missing)

/-! ## Canonical trees -/

/-- The level of the operator that an expression is made with; without one of the operators that
group to the left it is zero. -/
def looseness : Node → Nat
  | .binary _ operator _ => (level? operator.kind).getD 0
  | _ => 0

/-- Literals, variables and groups. -/
def isPrimary : Node → Bool
  | .number _ | .text _ | .character _ | .boolean _ | .ghosted | .identifier _ | .group _ => true
  | _ => false

/-- The operands of every operator are as tight as its place in the grammar demands. -/
def CanonicalExpression : Node → Prop
  | .number mark => mark.kind = .number
  | .text mark => mark.kind = .text
  | .character mark => mark.kind = .character
  | .boolean mark => mark.kind = .fr ∨ mark.kind = .cap
  | .ghosted => True
  | .identifier mark => mark.kind = .identifier ∨ mark.kind = .sigilIdentifier
  | .group inner => CanonicalExpression inner
  | .unary operator operand =>
    IsSign operator.kind ∧ CanonicalExpression operand ∧ looseness operand = 0
  | .binary left operator right =>
    CanonicalExpression left ∧ CanonicalExpression right ∧
      match level? operator.kind with
      | some level => looseness left ≤ level ∧ looseness right < level
      | none => operator.kind = .power ∧ isPrimary left = true ∧ looseness right = 0
  | _ => False

/-- The first token of a tree, a sign or a variable, is of the given kind. -/
def opensWith (kind : Token.Kind) : Node → Bool
  | .identifier mark => mark.kind = kind
  | .unary operator _ => operator.kind = kind
  | .binary left _ _ => opensWith kind left
  | .expression value => opensWith kind value
  | _ => false

/-- The right edge of a statement is an expression. -/
def endsInExpression : Node → Bool
  | .spill _ | .expression _ | .declaration _ _ _ | .assignment _ _ => true
  | .conditional _ consequent alternative =>
    if alternative.isAbsent then endsInExpression consequent else endsInExpression alternative
  | _ => false

/-- The right edge of a statement is a conditional without alternative. -/
def endsInConditional : Node → Bool
  | .conditional _ _ alternative => alternative.isAbsent || endsInConditional alternative
  | _ => false

mutual

/-- A statement whose parts cannot be taken for parts of one another. -/
def Canonical : Node → Prop
  | .spill value => CanonicalExpression value
  | .expression value => CanonicalExpression value ∧ opensWith .sigilIdentifier value = false
  | .declaration _ name value => name.kind = .identifier ∧ CanonicalExpression value
  | .assignment name value => name.kind = .identifier ∧ CanonicalExpression value
  | .block body => CanonicalAll body
  | .conditional condition consequent alternative =>
    CanonicalExpression condition ∧ Canonical consequent ∧ opensWith .minus consequent = false ∧
      (alternative.isAbsent = true ∨
        Canonical alternative ∧ endsInConditional consequent = false)
  | .listen _ target => target.kind = .sigilIdentifier
  | _ => False

/-- Canonical statements, none of which goes on with the expression that the one before it ends
in. -/
def CanonicalAll : List Node → Prop
  | [] => True
  | node :: later =>
    Canonical node ∧
      (endsInExpression node = true → ∀ next ∈ later.head?, opensWith .minus next = false) ∧
      CanonicalAll later

end

end Slang.Grammar
