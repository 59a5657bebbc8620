import Slang.CommandLine.Arguments
import Slang.Json.Parser
import Slang.Json.Printer
import Slang.Shell
import Slang.Tree.Encoding
import Slang.Tree.Loader

/-!
# Jobs

What a command line asks for: to parse a program and write its tree to a file, to run a tree, to
run a program, or to start the shell. A job is given the content of the file that it reads and says
which files it writes, so that it can be carried out on any store of files. The last part of this
module is such a store: the files of one directory, on which command lines are carried out one after
the other.
-/

namespace Slang.CommandLine

/-! ## Paths

A path is shown and compared without empty and `.` components.
-/

/-- The components of a path. -/
def pathParts (path : String) : List String :=
  (path.splitOn "/").filter fun part => !(part.isEmpty || part == ".")

/-- The slashes that an absolute path starts with: exactly two stay two. -/
def pathRoot (path : String) : String :=
  match path.toList with
  | '/' :: '/' :: '/' :: _ => "/"
  | '/' :: '/' :: _ => "//"
  | '/' :: _ => "/"
  | _ => ""

/-- A path in its normal form. -/
def normalPath (path : String) : String :=
  let text := pathRoot path ++ "/".intercalate (pathParts path)
  if text.isEmpty then "." else text

/-! ## Jobs and their results -/

/-- What is to be done. -/
inductive Task where
  | emitTree (path : String)
  | runTree (path : String)
  | runProgram (path : String)
  | shell
deriving DecidableEq

/-- A task and how to trace it. -/
structure Job where
  task : Task
  level : Nat
  traceFile : String

/-- The job that arguments ask for. An empty name of a file counts as none. -/
def Job.ofArguments (args : Arguments) : Job :=
  let named (path : Option String) : Option String := path.filter fun p => !p.isEmpty
  let task := match named args.emitTree, named args.runTree, named args.program with
    | some path, _, _ => .emitTree path
    | none, some path, _ => .runTree path
    | none, none, some path => .runProgram path
    | none, none, none => .shell
  ⟨task, args.verbosity, args.debugFile⟩

/-- Why the content of a file cannot be used. -/
inductive ContentError where
  /-- The bytes are no text. -/
  | encoding
  | json (error : Json.ParseError)
  | tree (error : LoadError)

/-- What a job results in. -/
structure Result where
  /-- The exit code, if the job ends the program with one. -/
  exit : Option Nat
  error : Option ContentError
  printed : List Printed
  /-- What is written to the error channel. -/
  complaint : String
  /-- The files that are written, with their content. -/
  written : List (String × String)
  /-- The input that has not been read. -/
  unread : List Char

namespace Job

/-- The file that a job reads. -/
def reads (job : Job) : Option String :=
  match job.task with
  | .emitTree path | .runTree path | .runProgram path => some (normalPath path)
  | .shell => none

/-- The file that receives the trace. It is made before anything is read. -/
def traces (job : Job) : Option String :=
  match job.task with
  | .emitTree _ => none
  | _ => if job.level = 0 then none else some (normalPath job.traceFile)

/-- How the job's program is run. -/
def settings (job : Job) : Settings :=
  ⟨job.task = .shell, job.level⟩

/-- Makes every kind of line end a single line break. -/
def unifyLines : List Char → List Char
  | '\r' :: '\n' :: later => '\n' :: unifyLines later
  | '\r' :: later => '\n' :: unifyLines later
  | c :: later => c :: unifyLines later
  | [] => []

/-- The text that bytes stand for. -/
def decode (bytes : ByteArray) : Except ContentError String :=
  match String.fromUTF8? bytes with
  | some s => .ok (String.ofList (unifyLines s.toList))
  | none => .error .encoding

/-- The exit code of a unit. -/
def exitCode (ok : Bool) : Option Nat :=
  some (if ok then 0 else 1)

/-- Parses a program and writes its tree beside it. -/
def emit (path : String) (source : String) (input : String) : Result :=
  let scan := Scan.ofSource source
  let warnings := scan.diagnostics.map Printed.ofDiagnostic
  match Parser.program scan.tokens with
  | .error failure =>
    ⟨some 1, none, warnings ++ [.failure (.ofParseFailure failure)], "", [], input.toList⟩
  | .ok program =>
    let target := normalPath path ++ ".ast.json"
    ⟨some 0, none, warnings ++ [.notice target], "",
      [(target, (Node.programToJson program).render)], input.toList⟩

/-- The result of a step whose trace goes to the trace file. -/
def finish (job : Job) (step : Step) (exit : Option Nat) : Result :=
  let written := job.traces.toList.map fun file => (file, Event.renderAll step.traced)
  ⟨exit, none, step.printed, "", written, step.session.state.input⟩

/-- The program that the text of a tree file describes. -/
def loadTree (source : String) : Except ContentError (List Node) := do
  let j ← (Json.parse source).mapError .json
  (Node.programOfJson j).mapError .tree

/-- Carries out a task on the text of its file. -/
def performOn (job : Job) (source : String) (input : String) : Result :=
  match job.task with
  | .emitTree path => emit path source input
  | .runTree _ =>
    match loadTree source with
    | .error e => ⟨none, some e, [], "", [], input.toList⟩
    | .ok program =>
      let step := (Session.start input).runProgram job.settings program
      job.finish step (exitCode step.ok)
  | .runProgram _ =>
    let step := (Session.start input).runSource job.settings source
    job.finish step (exitCode step.ok)
  | .shell => job.finish (Shell.dialogue job.settings input) none

/-- Carries out a job, given the bytes of the file that it reads, if there is such a file. -/
def perform (job : Job) (content : Option ByteArray) (input : String) : Result :=
  match job.reads, content with
  | none, _ => job.performOn "" input
  | some path, none =>
    ⟨some 1, none, [], "Error: file " ++ path ++ " not found\n", [], input.toList⟩
  | some _, some bytes =>
    match decode bytes with
    | .error e => ⟨none, some e, [], "", [], input.toList⟩
    | .ok source => job.performOn source input

end Job

/-- A short summary of the arguments. -/
def usageText : String :=
  "usage: genz [-h] [-v] [--debug-file DEBUG_FILE]\n" ++
  "            [--emit-ast GENZ_FILE | --ast AST_JSON_FILE]\n" ++
  "            [program]\n"

/-- What the program says about its arguments. -/
def helpText : String :=
  usageText ++ "\n" ++
  "GenZ language interpreter\n\n" ++
  "positional arguments:\n" ++
  "  program               GenZ program file (.genz) to execute; omit for the\n" ++
  "                        shell\n\n" ++
  "options:\n" ++
  "  -h, --help            show this help message and exit\n" ++
  "  -v                    increase debug verbosity (can be repeated)\n" ++
  "  --debug-file DEBUG_FILE\n" ++
  "                        file receiving debug output (default: debug.txt)\n" ++
  "  --emit-ast GENZ_FILE  emit AST JSON for the given .genz file\n" ++
  "  --ast AST_JSON_FILE   execute AST from a JSON file"

/-- What a command line that asks for no job results in. -/
def Refusal.result (refusal : Refusal) (input : String) : Result :=
  match refusal with
  | .usage => ⟨some 2, none, [], usageText, [], input.toList⟩
  | .help => ⟨some 0, none, [.notice helpText], "", [], input.toList⟩

/-! ## A store of files -/

/-- Files by their normal paths. -/
abbrev Store := List (String × ByteArray)

namespace Store

/-- The content of a file. -/
def read? (store : Store) (path : String) : Option ByteArray :=
  store.lookup path

/-- Writes a file, in place of an older one of that name. -/
def write (store : Store) (path : String) (content : ByteArray) : Store :=
  if (store.read? path).isSome then
    store.map fun file => if file.1 = path then (path, content) else file
  else store ++ [(path, content)]

/-- Writes texts to files. -/
def writeAll (store : Store) (texts : List (String × String)) : Store :=
  texts.foldl (fun store (path, text) => store.write path text.toUTF8) store

/-- Carries out a job. -/
def carryOut (store : Store) (job : Job) (input : String) : Result × Store :=
  let store := store.writeAll (job.traces.toList.map fun path => (path, ""))
  let result := job.perform (job.reads.bind store.read?) input
  (result, store.writeAll result.written)

/-- Carries out a command line. -/
def run (store : Store) (argv : List String) (input : String) : Result × Store :=
  match Arguments.parse argv with
  | .error refusal => (refusal.result input, store)
  | .ok args => store.carryOut (.ofArguments args) input

end Store

end Slang.CommandLine
