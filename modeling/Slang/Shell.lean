import Slang.Session
import Slang.Text.Class

/-!
# The shell

A dialogue in which every line is run as a unit of source text, apart from a few commands. A line is
a command if its leading word is the name of one, whatever follows.
-/

namespace Slang.Shell

/-- What the shell shows when it starts. -/
def intro : String :=
  "GenZ interpreter :: Python backend\nType 'help' for more information, 'exit' to leave."

/-- What stands in front of every line that is read. -/
def prompt : String := "> "

/-- What the shell says when it is asked for help. -/
def helpText : String :=
  "Welcome to the GenZ interpreter!\n\n" ++
  "Declare typed variables with a sigil: 'tea @name as \"Jess\"' (text),\n" ++
  "'tea $age as 17' (integer) or 'tea %rate as 2.5' (number).\n" ++
  "Print with 'spill $age', read input with 'listen \"Name? \" as @name',\n" ++
  "branch with 'bet $age >= 18 : spill \"adult\" end deadass : spill \"minor\" end'.\n" ++
  "Comments look like 'FYI. this is ignored.'"

/-- What a line asks for. -/
inductive Command where
  | nothing
  | help
  | exit
  /-- The end of the input, or the word for it. -/
  | close
  | run (source : String)
deriving DecidableEq

/-- A character of a command's name. -/
def isNameChar (c : Char) : Bool :=
  c.isAlphanum || c == '_'

/-- What a line asks for. -/
def Command.ofLine (line : String) : Command :=
  match Text.trim line.toList with
  | [] => .nothing
  | '?' :: _ => .help
  | cs =>
    let name := String.ofList (cs.takeWhile isNameChar)
    if name = "help" then .help
    else if name = "exit" then .exit
    else if name = "EOF" then .close
    else .run (String.ofList cs)

/-- What a line results in. -/
structure Reaction extends Step where
  /-- The dialogue ends. -/
  stop : Bool

/-- A reaction that runs nothing. -/
def say (session : Session) (printed : List Printed) (stop : Bool) : Reaction :=
  ⟨⟨session, true, printed, []⟩, stop⟩

/-- Carries out what a line asks for. -/
def react (settings : Settings) (session : Session) (line : String) : Reaction :=
  match Command.ofLine line with
  | .nothing => say session [] false
  | .help => say session [.notice helpText] false
  | .exit => say session [] true
  | .close => say session [.notice ""] true
  | .run source => ⟨session.runSource settings source, false⟩

/-- Takes the next line off the input; at its end the dialogue is to be closed. -/
def nextLine (session : Session) : String × Session :=
  if session.state.input.isEmpty then ("EOF", session)
  else
    let (line, input) := takeLine session.state.input
    (String.ofList line, { session with state := { session.state with input := input } })

/-- Reads lines and reacts to them, at most `steps` times. -/
def converse (settings : Settings) : (steps : Nat) → Session → Step
  | 0, session => ⟨session, true, [], []⟩
  | steps + 1, session =>
    let (line, session) := nextLine session
    let reaction := react settings session line
    if reaction.stop then
      { reaction.toStep with printed := .prompt prompt :: reaction.printed }
    else
      let later := converse settings steps reaction.session
      { later with
        printed := .prompt prompt :: reaction.printed ++ later.printed
        traced := reaction.traced ++ later.traced }

/-- A whole dialogue. It ends at the end of the input at the latest, and every line before that
takes at least one character off the input. -/
def dialogue (settings : Settings) (input : String) : Step :=
  let session := Session.start input
  let step := converse settings (session.state.input.length + 1) session
  { step with printed := .notice intro :: step.printed }

end Slang.Shell
