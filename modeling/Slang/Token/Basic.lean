import Slang.Json.Shown
import Slang.Token.Kind

/-!
# Tokens

A token is a piece of source text with its kind, the value it denotes and the line it stands on.

A tree keeps of every token its kind and, as plain data, its lexeme, its literal and its line: the
token's mark. The data of a token from a source text are a text, a literal and a number. A tree that
comes from elsewhere may hold any data in their place; what it means then is decided when it is run.
-/

namespace Slang

/-- The value that a token denotes by itself. -/
inductive Literal where
  | absent
  | number (value : Float)
  | text (value : String)
deriving DecidableEq

/-- A token. -/
structure Token where
  kind : Token.Kind
  lexeme : String
  literal : Literal
  line : Nat
deriving DecidableEq

namespace Token

/-- The lexeme, or for an empty lexeme the symbol of the kind. -/
def display (t : Token) : String :=
  if t.lexeme.isEmpty then t.kind.symbol else t.lexeme

end Token

/-! ## Marks -/

/-- What a tree keeps of a token. -/
structure Mark where
  kind : Token.Kind
  lexeme : Json
  literal : Json
  /-- The line, or `null` if it is not known. -/
  line : Json
deriving DecidableEq

/-- A literal as plain data. -/
def Literal.toJson : Literal → Json
  | .absent => .null
  | .number value => .number value
  | .text value => .text value

/-- What a tree keeps of the token. -/
def Token.mark (t : Token) : Mark :=
  ⟨t.kind, .text t.lexeme, t.literal.toJson, .integer t.line⟩

namespace Token

@[simp] theorem mark_kind (t : Token) : t.mark.kind = t.kind := rfl

@[simp] theorem mark_lexeme (t : Token) : t.mark.lexeme = .text t.lexeme := rfl

@[simp] theorem mark_literal (t : Token) : t.mark.literal = t.literal.toJson := rfl

@[simp] theorem mark_line (t : Token) : t.mark.line = .integer t.line := rfl

end Token

end Slang
