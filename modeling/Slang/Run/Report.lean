import Slang.Run.Fault
import Slang.Token.Scan
import Slang.Tree.Parser.Basic

/-!
# Reports

What a run prints: values, prompts, warnings about the source text, and the failure that stopped it.
A report names the line it is about, if it is about one. Colours mark the line, the label of a
failure and the text of a warning.
-/

namespace Slang

/-- Why a unit of work stopped. -/
inductive Failure where
  | parse (line : Json) (text : String)
  | runtime (line : Json) (text : String)
  | undefinedVariable (name : String)
  /-- A tree that no source text has. -/
  | internal (text : String)
  /-- Any other error, by the name of its kind. -/
  | other (kind text : String)
  | tooDeep
  | interrupted
  /-- A request to leave the program. -/
  | exit
deriving DecidableEq

namespace Failure

/-- The failure that a parse error is. -/
def ofParseError (e : ParseError) : Failure :=
  .parse (.integer e.token.line) e.expected.message

/-- The failure that a failed parse is. A missing sigil is no parse error: the look at the first
character of the lexeme fails. -/
def ofParseFailure : ParseFailure → Failure
  | .unexpected e => .ofParseError e
  | .noSigil _ => .other "IndexError" "string index out of range"

/-- The failure that a fault is. -/
def ofFault : Fault → Failure
  | .runtime mark cause => .runtime mark.line cause.message
  | fault => .internal fault.message

/-- The line a failure is about, or `null` if it is about none. -/
def line : Failure → Json
  | .parse line _ => line
  | .runtime line _ => line
  | _ => .null

/-- The words in front of the text of a failure. -/
def label : Failure → String
  | .parse _ _ => "Parse Error: "
  | .runtime _ _ => "Runtime error: "
  | _ => "Runtime Error: "

/-- A text, or for an empty one the name of the kind of error. -/
def textOr (kind text : String) : String :=
  if text.isEmpty then kind else text

/-- The text of a failure. -/
def message : Failure → String
  | .parse _ text => textOr "ParseError" text
  | .runtime _ text => textOr "GenZRuntimeError" text
  | .undefinedVariable name => (Cause.undefinedVariable name).message
  | .internal text => text
  | .other kind text => textOr kind text
  | .tooDeep => "maximum recursion depth exceeded"
  | .interrupted => "keyboard interrupt"
  | .exit => "SystemExit"

/-- A request to leave the program is no error: it is passed on and not reported. -/
def isReported : Failure → Bool
  | .exit => false
  | _ => true

end Failure

/-- How reports are marked. -/
inductive Style where
  | plain | coloured
deriving DecidableEq

namespace Style

/-- The codes around a coloured text. -/
def wrap (style : Style) (codes text : String) : String :=
  match style with
  | .plain => text
  | .coloured => codes ++ text ++ "\x1b[0m"

/-- Where a report is about. -/
def location (style : Style) (line : Json) : String :=
  if line = .null then "" else style.wrap "\x1b[1m" ("[line " ++ line.shown ++ "] ")

/-- The label of a failure. -/
def label (style : Style) (text : String) : String :=
  style.wrap "\x1b[1m\x1b[31m" text

/-- The text of a warning. -/
def warning (style : Style) (text : String) : String :=
  style.wrap "\x1b[35m" text

end Style

/-- One thing that is printed. -/
inductive Printed where
  | value (text : String)
  /-- The value of an expression that stands as a statement, shown in a dialogue. -/
  | echo (text : String)
  | prompt (text : String)
  /-- A text of the program around the language. -/
  | notice (text : String)
  | warning (line : Json) (text : String)
  | failure (reported : Failure)
deriving DecidableEq

namespace Printed

/-- The warning about a problem of the source text. -/
def ofDiagnostic (d : Diagnostic) : Printed :=
  .warning (.integer d.line) d.problem.message

/-- The printed text; all but a prompt are lines of their own. -/
def render (style : Style) : Printed → String
  | .value text => text ++ "\n"
  | .echo text => text ++ "\n"
  | .prompt text => text
  | .notice text => text ++ "\n"
  | .warning line text => style.location line ++ style.warning text ++ "\n"
  | .failure f => style.location f.line ++ style.label f.label ++ f.message ++ "\n"

/-- All that is printed, as one text. -/
def renderAll (style : Style) (printed : List Printed) : String :=
  String.join (printed.map (render style))

end Printed

end Slang
