import Slang.Run.Exec
import Slang.Tree.Parser.Statement

/-!
# Sessions

A session runs units of source text one after the other against one outermost frame and one input.
An error is reported and ends its unit; the session goes on, and remembers that there was one.
-/

namespace Slang

/-- What is kept from one unit to the next. -/
structure Session where
  state : State
  hadError : Bool

/-- What running one unit results in. -/
structure Step where
  session : Session
  /-- The unit ended without a reported error. -/
  ok : Bool
  printed : List Printed
  traced : List Event

namespace Session

/-- A session that has run nothing. -/
def start (input : String) : Session :=
  ⟨⟨.empty, input.toList⟩, false⟩

/-- Reports a failure. -/
def fail (session : Session) (failure : Failure) : Step :=
  ⟨{ session with hadError := true }, false, [.failure failure], []⟩

/-- Runs a program that has been parsed. -/
def runProgram (settings : Settings) (session : Session) (program : List Node) : Step :=
  let outcome := Node.execAll settings program session.state
  let traced := settings.trace (.started program.length) ++ outcome.traced
  let session := { session with state := outcome.state }
  match outcome.fault with
  | none => ⟨session, true, outcome.printed, traced⟩
  | some fault =>
    let failed := session.fail (.ofFault fault)
    { failed with printed := outcome.printed ++ failed.printed, traced := traced }

/-- What scanning leaves in the trace. -/
def scanTrace (settings : Settings) (scan : Scan) : List Event :=
  settings.trace (.scanned scan.tokens.length scan.diagnostics.length)
    ++ scan.tokens.flatMap (fun t => settings.trace (.token t))
    ++ scan.diagnostics.flatMap (fun d => settings.trace (.diagnostic d))

/-- Runs one unit of source text. -/
def runSource (settings : Settings) (session : Session) (source : String) : Step :=
  let scan := Scan.ofSource source
  let warnings := scan.diagnostics.map Printed.ofDiagnostic
  let traced := scanTrace settings scan
  let step := match Parser.program scan.tokens with
    | .error failure => session.fail (.ofParseFailure failure)
    | .ok program =>
      let ran := session.runProgram settings program
      { ran with traced := settings.trace (.parsed program.length) ++ ran.traced }
  { step with printed := warnings ++ step.printed, traced := traced ++ step.traced }

end Session

end Slang
