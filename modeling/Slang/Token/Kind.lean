/-!
# Kinds of tokens

Each kind has a name, used where trees and traces are written out, and a symbol: the text of the
operator, or the name again for kinds without a fixed text.
-/

namespace Slang.Token

/-- The kind of a token. -/
inductive Kind where
  | leftParen | rightParen | leftBrace | rightBrace | comma | dot | semicolon | colon | plus
  | increment | minus | decrement | times | divide | modulo | power | and | or | not | notEqual
  | assign | equal | greater | greaterEqual | less | lessEqual | number | text | character
  | identifier | sigilIdentifier | spill | listen | asWord | tea | bet | deadass | fr | cap
  | ghosted | endWord | endIf | endLoop | lowkey | highkey | summon | slay | squad | super | dis
  | cancelled | yeet | pullup | endOfFile
deriving DecidableEq, Repr

namespace Kind

/-- Every kind, in the order of their definition. -/
def all : List Kind :=
  [.leftParen, .rightParen, .leftBrace, .rightBrace, .comma, .dot, .semicolon, .colon, .plus,
   .increment, .minus, .decrement, .times, .divide, .modulo, .power, .and, .or, .not, .notEqual,
   .assign, .equal, .greater, .greaterEqual, .less, .lessEqual, .number, .text, .character,
   .identifier, .sigilIdentifier, .spill, .listen, .asWord, .tea, .bet, .deadass, .fr, .cap,
   .ghosted, .endWord, .endIf, .endLoop, .lowkey, .highkey, .summon, .slay, .squad, .super, .dis,
   .cancelled, .yeet, .pullup, .endOfFile]

/-- The name of a kind. -/
def name : Kind → String
  | .leftParen => "LPAR"
  | .rightParen => "RPAR"
  | .leftBrace => "LBRACE"
  | .rightBrace => "RBRACE"
  | .comma => "COMMA"
  | .dot => "DOT"
  | .semicolon => "SEMICOLON"
  | .colon => "COLON"
  | .plus => "ADD"
  | .increment => "INC"
  | .minus => "MINUS"
  | .decrement => "DEC"
  | .times => "MULTIPLY"
  | .divide => "DIVIDE"
  | .modulo => "MODULO"
  | .power => "EXPONENT"
  | .and => "AND"
  | .or => "OR"
  | .not => "NOT"
  | .notEqual => "NOT_EQUAL"
  | .assign => "ASSIGN"
  | .equal => "EQUAL_EQUAL"
  | .greater => "GREATER"
  | .greaterEqual => "G_EQUAL"
  | .less => "LESS"
  | .lessEqual => "L_EQUAL"
  | .number => "NUM"
  | .text => "STR"
  | .character => "CHAR"
  | .identifier => "IDENTIFIER"
  | .sigilIdentifier => "SIGIL_IDENT"
  | .spill => "PRINT"
  | .listen => "INPUT"
  | .asWord => "ASSIGNMENT"
  | .tea => "VAR"
  | .bet => "IF"
  | .deadass => "ELSE"
  | .fr => "TRUE"
  | .cap => "FALSE"
  | .ghosted => "NULL"
  | .endWord => "END"
  | .endIf => "END_IF"
  | .endLoop => "END_LOOP"
  | .lowkey => "FOR"
  | .highkey => "WHILE"
  | .summon => "FUN"
  | .slay => "RETURN"
  | .squad => "CLASS"
  | .super => "SUPER"
  | .dis => "THIS"
  | .cancelled => "BREAK"
  | .yeet => "CONTINUE"
  | .pullup => "IMPORT"
  | .endOfFile => "END_OF_FILE"

/-- The text of an operator, or the name of a kind without a fixed text. -/
def symbol : Kind → String
  | .leftParen => "("
  | .rightParen => ")"
  | .leftBrace => "\x7b"
  | .rightBrace => "\x7d"
  | .comma => ","
  | .dot => "."
  | .semicolon => ";"
  | .colon => ":"
  | .plus => "+"
  | .increment => "++"
  | .minus => "-"
  | .decrement => "--"
  | .times => "*"
  | .divide => "/"
  | .modulo => "%"
  | .power => "^"
  | .and => "&"
  | .or => "|"
  | .not => "!"
  | .notEqual => "!="
  | .assign => "="
  | .equal => "=="
  | .greater => ">"
  | .greaterEqual => ">="
  | .less => "<"
  | .lessEqual => "<="
  | .endOfFile => "EOF"
  | kind => kind.name

/-- The kind with the given name. -/
def ofName? (s : String) : Option Kind :=
  all.find? fun kind => kind.name == s

/-- The kind with the given symbol. -/
def ofSymbol? (s : String) : Option Kind :=
  all.find? fun kind => kind.symbol == s

/-- The kinds that close a block. -/
def isTerminator : Kind → Bool
  | .endWord | .endIf | .endLoop => true
  | _ => false

/-- The words with a meaning of their own. -/
def keywords : List (String × Kind) :=
  [("spill", .spill), ("listen", .listen), ("as", .asWord), ("tea", .tea), ("bet", .bet),
   ("deadass", .deadass), ("fr", .fr), ("cap", .cap), ("ghosted", .ghosted), ("end", .endWord),
   ("end_if", .endIf), ("end_loop", .endLoop), ("lowkey", .lowkey), ("highkey", .highkey),
   ("summon", .summon), ("slay", .slay), ("squad", .squad), ("super", .super), ("dis", .dis),
   ("cancelled", .cancelled), ("yeet", .yeet), ("pullup", .pullup)]

/-- The kind of a word: a keyword, or an identifier. -/
def ofWord (word : String) : Kind :=
  (keywords.lookup word).getD .identifier

end Kind

end Slang.Token
