import Slang.Number.Numeral
import Slang.Text.Class
import Slang.Token.Basic

/-!
# Segments of source text

Source text is cut from left to right into segments: tokens, single layout characters, comments, and
pieces that are no token and get reported. Where a segment ends depends only on the characters from
its start on. Segments cover the text without gap or overlap.
-/

namespace Slang

/-- What is wrong with a piece of source text that is no token. -/
inductive Problem where
  | unexpected (c : Char)
  | openComment
  | openText
  | openCharacter
  /-- A closed character literal that holds no or several characters. -/
  | characterLength
deriving DecidableEq

/-- The wording of a problem. -/
def Problem.message : Problem → String
  | .unexpected c => "Unexpected character: '" ++ c.toString ++ "'"
  | .openComment => "Comment Incomplete"
  | .openText => "Unterminated string."
  | .openCharacter => "Unterminated character literal."
  | .characterLength => "Character literal must be exactly one character."

/-- A piece of source text. -/
inductive Segment where
  | token (kind : Token.Kind) (lexeme : List Char) (literal : Literal)
  | layout (c : Char)
  | comment (body : List Char)
  | reported (body : List Char) (problem : Problem)
deriving DecidableEq

namespace Segment

/-- The characters of a segment. -/
def text : Segment → List Char
  | .token _ lexeme _ => lexeme
  | .layout c => [c]
  | .comment body => body
  | .reported body _ => body

/-- The operators of one character that begin no longer operator. -/
def single? : Char → Option Token.Kind
  | '(' => some .leftParen
  | ')' => some .rightParen
  | '{' => some .leftBrace
  | '}' => some .rightBrace
  | ',' => some .comma
  | '.' => some .dot
  | ';' => some .semicolon
  | ':' => some .colon
  | '*' => some .times
  | '/' => some .divide
  | '^' => some .power
  | '&' => some .and
  | '|' => some .or
  | _ => none

/-- An operator character that may be doubled into another operator. -/
structure Pair where
  second : Char
  both : Token.Kind
  alone : Token.Kind

/-- The operators that begin with the given character and may have a second one. -/
def pair? : Char → Option Pair
  | '+' => some ⟨'+', .increment, .plus⟩
  | '-' => some ⟨'-', .decrement, .minus⟩
  | '!' => some ⟨'=', .notEqual, .not⟩
  | '=' => some ⟨'=', .equal, .assign⟩
  | '>' => some ⟨'=', .greaterEqual, .greater⟩
  | '<' => some ⟨'=', .lessEqual, .less⟩
  | _ => none

/-- A character that stands between tokens. -/
def isLayout (c : Char) : Bool :=
  c == ' ' || c == '\r' || c == '\t' || c == '\n'

/-- A character that marks the declared kind of a variable. -/
def isSigil (c : Char) : Bool :=
  c == '@' || c == '$' || c == '%'

/-- The text starts with a letter. -/
def startsWithLetter : List Char → Bool
  | c :: _ => Text.isLetter c
  | [] => false

/-- The rest of the mark that opens a comment, after its first character. -/
def commentMark : List Char := ['Y', 'I', '.']

/-- One or two operator characters. -/
def operator (c : Char) (p : Pair) (rest : List Char) : Segment × List Char :=
  match rest with
  | d :: later =>
    if d = p.second then (.token p.both [c, d] .absent, later)
    else (.token p.alone [c] .absent, rest)
  | [] => (.token p.alone [c] .absent, rest)

/-- A sigil and the word after it. -/
def sigilWord (c : Char) (rest : List Char) : Segment × List Char :=
  (.token .sigilIdentifier (c :: rest.takeWhile Text.isWordChar) .absent,
    rest.dropWhile Text.isWordChar)

/-- A keyword or an identifier. -/
def word (c : Char) (rest : List Char) : Segment × List Char :=
  let lexeme := c :: rest.takeWhile Text.isWordChar
  (.token (.ofWord (String.ofList lexeme)) lexeme .absent, rest.dropWhile Text.isWordChar)

/-- The double denoted by digits before and after a point. -/
def numberLiteral (whole fraction : List Char) : Literal :=
  .number (Double.ofDecimal ⟨digitsValue (whole ++ fraction), -(fraction.length : Int)⟩)

/-- Digits, with a point and more digits if a digit follows the point. -/
def number (c : Char) (rest : List Char) : Segment × List Char :=
  let whole := c :: rest.takeWhile isDigit
  let after := rest.dropWhile isDigit
  match after with
  | '.' :: d :: later =>
    if isDigit d then
      let fraction := d :: later.takeWhile isDigit
      (.token .number (whole ++ '.' :: fraction) (numberLiteral whole fraction),
        later.dropWhile isDigit)
    else (.token .number whole (numberLiteral whole []), after)
  | _ => (.token .number whole (numberLiteral whole []), after)

/-- Text up to the next double quote, over any number of lines. -/
def quotedText (rest : List Char) : Segment × List Char :=
  let body := rest.takeWhile (· != '"')
  match rest.dropWhile (· != '"') with
  | quote :: later =>
    (.token .text ('"' :: body ++ [quote]) (.text (String.ofList body)), later)
  | [] => (.reported ('"' :: body) .openText, [])

/-- A character between single quotes on one line. -/
def quotedCharacter (rest : List Char) : Segment × List Char :=
  let inside := fun c => c != '\'' && c != '\n'
  let body := rest.takeWhile inside
  match rest.dropWhile inside with
  | '\'' :: later =>
    let lexeme := '\'' :: body ++ ['\'']
    if body.length = 1 then (.token .character lexeme (.text (String.ofList body)), later)
    else (.reported lexeme .characterLength, later)
  | after => (.reported ('\'' :: body) .openCharacter, after)

/-- A comment, which ends with the first point after its mark. -/
def commentAfter (c : Char) (rest : List Char) : Segment × List Char :=
  let mark := c :: commentMark
  let inside := rest.drop commentMark.length
  let body := inside.takeWhile (· != '.')
  match inside.dropWhile (· != '.') with
  | point :: later => (.comment (mark ++ body ++ [point]), later)
  | [] => (.reported (mark ++ body) .openComment, [])

/-- The first segment of a text that starts with `c`, and the text after it. -/
def next (c : Char) (rest : List Char) : Segment × List Char :=
  match single? c with
  | some kind => (.token kind [c] .absent, rest)
  | none =>
    match pair? c with
    | some p => operator c p rest
    | none =>
      if isLayout c then (.layout c, rest)
      else if isSigil c && startsWithLetter rest then sigilWord c rest
      else if c = '%' then (.token .modulo [c] .absent, rest)
      else if c = 'F' && commentMark.isPrefixOf rest then commentAfter c rest
      else if Text.isLetter c then word c rest
      else if isDigit c then number c rest
      else if c = '"' then quotedText rest
      else if c = '\'' then quotedCharacter rest
      else (.reported [c] (.unexpected c), rest)

end Segment

end Slang
