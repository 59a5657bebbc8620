import Slang.Tree.Node

/-!
# Reading tokens

Parsing reads tokens from left to right and gives up at the first token that does not fit, or after
a declaration whose variable has no sigil. Every parsing function returns the tokens that it has not
read together with a proof that there are fewer of them than before; this is why the recursion ends.
-/

namespace Slang

/-- What the parser was looking for when it gave up. -/
inductive Expectation where
  | expression
  | closingParen
  | sigilVariable
  | asInDeclaration
  | asInAssignment
  | prompt
  | asAfterPrompt
  | inputVariable
deriving DecidableEq

/-- The wording of an unmet expectation. -/
def Expectation.message : Expectation → String
  | .expression => "Expect expression."
  | .closingParen => "Expect ')' after expression."
  | .sigilVariable => "Expect sigil variable (e.g., $age) after 'tea'."
  | .asInDeclaration => "Expect 'as' in variable declaration."
  | .asInAssignment => "Expect 'as' after variable name."
  | .prompt => "Expect prompt string after 'listen'."
  | .asAfterPrompt => "Expect 'as' after prompt string."
  | .inputVariable => "Expect variable for input (e.g., @name)."

/-- The token at which parsing stopped, and what was expected in its place. -/
structure ParseError where
  token : Token
  expected : Expectation
deriving DecidableEq

/-- Why parsing stopped. A sigil identifier with an empty lexeme has no sigil to declare it with; no
text is scanned into such a token. -/
inductive ParseFailure where
  | unexpected (e : ParseError)
  | noSigil (target : Token)
deriving DecidableEq

namespace Parser

/-- What is left of a token list after at least one token. -/
abbrev Shorter (ts : List Token) := { rest : List Token // rest.length < ts.length }

/-- What is left of a token list. -/
abbrev Remaining (ts : List Token) := { rest : List Token // rest.length ≤ ts.length }

namespace Shorter

/-- Reading on leaves fewer tokens still. -/
def andThen {ts : List Token} (first : Shorter ts) (rest : Remaining first.val) : Shorter ts :=
  ⟨rest.val, Nat.lt_of_le_of_lt rest.property first.property⟩

/-- Fewer tokens are not more tokens. -/
def weaken {ts : List Token} (rest : Shorter ts) : Remaining ts :=
  ⟨rest.val, Nat.le_of_lt rest.property⟩

/-- What is left of the tokens after the first one is left of all of them. -/
def widen {t : Token} {ts : List Token} (rest : Shorter ts) : Shorter (t :: ts) :=
  ⟨rest.val, Nat.lt_succ_of_lt rest.property⟩

end Shorter

namespace Remaining

/-- Nothing has been read. -/
def all (ts : List Token) : Remaining ts :=
  ⟨ts, Nat.le_refl _⟩

/-- The first token has been read, and perhaps more. -/
def widen {t : Token} {ts : List Token} (rest : Remaining ts) : Shorter (t :: ts) :=
  ⟨rest.val, Nat.lt_succ_of_le rest.property⟩

end Remaining

/-- The token that stands for the end of a list without an end mark. -/
def missing : Token := ⟨.endOfFile, "", .absent, 0⟩

/-- Takes a token of the given kind. -/
def expect (kind : Token.Kind) (expected : Expectation) (ts : List Token) :
    Except ParseFailure (Token × Shorter ts) :=
  match ts with
  | [] => .error (.unexpected ⟨missing, expected⟩)
  | t :: rest =>
    if t.kind = kind then .ok (t, (Remaining.all rest).widen)
    else .error (.unexpected ⟨t, expected⟩)

end Parser

end Slang
