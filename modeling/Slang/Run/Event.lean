import Slang.Json.Shown
import Slang.Token.Scan

/-!
# Events

The steps of a run that are written to the trace. Each has a level, and a trace shows the events up
to its own level.
-/

namespace Slang

/-- A step of a run. -/
inductive Event where
  | scanned (tokens diagnostics : Nat)
  | token (token : Token)
  | diagnostic (diagnostic : Diagnostic)
  | parsed (statements : Nat)
  | started (statements : Nat)
  | defined (name : Json) (value : String) (depth : Nat)
  | assigned (name value : String)
  | entered (depth : Nat)
  | left (depth : Nat)
  | tested (condition : String) (holds : Bool)
deriving DecidableEq

namespace Event

/-- The least level of a trace that shows the event. -/
def level : Event → Nat
  | .scanned _ _ | .diagnostic _ | .parsed _ | .started _ => 1
  | .defined _ _ _ | .assigned _ _ => 2
  | .entered _ | .left _ | .tested _ _ => 3
  | .token _ => 4

/-- A count in decimal. -/
def number (n : Nat) : String :=
  String.ofList (natDigits n)

/-- The text of an event in the trace. -/
def text : Event → String
  | .scanned tokens diagnostics =>
    "scanned " ++ number tokens ++ " token(s), " ++ number diagnostics ++ " diagnostic(s)"
  | .token t =>
    "token " ++ t.kind.name ++ " " ++ Text.quoted t.lexeme ++ " line " ++ number t.line
  | .diagnostic d => "diagnostic line " ++ number d.line ++ ": " ++ d.problem.message
  | .parsed statements => "parsed " ++ number statements ++ " statement(s)"
  | .started statements => "run " ++ number statements ++ " statement(s)"
  | .defined name value depth =>
    "define " ++ name.shown ++ " = " ++ value ++ " at depth " ++ number depth
  | .assigned name value => "assign " ++ name ++ " = " ++ value
  | .entered depth => "enter block at depth " ++ number depth
  | .left depth => "leave block at depth " ++ number depth
  | .tested condition holds =>
    "if condition " ++ condition ++ " -> " ++ (if holds then "True" else "False")

/-- A trace as one text, an event to a line. -/
def renderAll (events : List Event) : String :=
  String.join (events.map fun e => e.text ++ "\n")

end Event

end Slang
