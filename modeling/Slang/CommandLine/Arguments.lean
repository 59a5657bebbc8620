import Slang.Number.Numeral

/-!
# Arguments

A command line has options, which may stand before or after the program, and at most one program. An
option is given in full or by any beginning that no other option shares. The value of an option is
the next argument or follows an equals sign. After `--` every argument is a plain one.
-/

namespace Slang.CommandLine

/-- The options. -/
inductive Flag where
  | verbose | help | debugFile | emitTree | runTree
deriving DecidableEq

/-- The names of the options. -/
def flagNames : List (String × Flag) :=
  [("-h", .help), ("--help", .help), ("-v", .verbose), ("--debug-file", .debugFile),
   ("--emit-ast", .emitTree), ("--ast", .runTree)]

/-- The options that have a value. -/
def Flag.takesValue : Flag → Bool
  | .verbose | .help => false
  | _ => true

/-- What follows the name of an option within its argument. -/
inductive Attached where
  | nothing
  /-- A value after an equals sign. -/
  | value (text : String)
  /-- More characters after a short name, each of them a short name again. -/
  | joined (names : List Char)
deriving DecidableEq

/-- What an argument is, before the arguments are put together. -/
inductive Word where
  | separator
  | plain (text : String)
  | option (flag : Flag) (attached : Attached)
  | unknown
deriving DecidableEq

/-- Why no work can be done. -/
inductive Refusal where
  | usage
  /-- Help was asked for. -/
  | help
deriving DecidableEq

/-- The text before the first equals sign and the text after it. -/
def splitEquals (arg : List Char) : List Char × Option (List Char) :=
  match arg.dropWhile (· != '=') with
  | [] => (arg, none)
  | _ :: value => (arg.takeWhile (· != '='), some value)

/-- A negative number is a plain argument. -/
def isNegativeNumber : List Char → Bool
  | '-' :: cs =>
    let fraction := cs.dropWhile isDigit
    match fraction with
    | [] => !cs.isEmpty
    | '.' :: digits => !digits.isEmpty && digits.all isDigit
    | _ => false
  | _ => false

/-- The long options whose names begin with the given text. -/
def longFlags (beginning : List Char) : List Flag :=
  flagNames.filterMap fun (name, flag) =>
    if beginning.isPrefixOf name.toList then some flag else none

/-- What an argument that starts with a hyphen and has more characters is. A name that is given in
full is that option, even if longer names begin with it. -/
def hyphenWord (arg : List Char) : Except Refusal Word :=
  let (name, value) := splitEquals arg
  let attached := value.elim .nothing fun text => .value (String.ofList text)
  match flagNames.lookup (String.ofList name) with
  | some flag => .ok (.option flag attached)
  | none =>
    let candidates := if arg.take 2 = ['-', '-'] then
        (longFlags name).map fun flag => Word.option flag attached
      else
        match flagNames.lookup (String.ofList (arg.take 2)) with
        | some flag => [.option flag (.joined (arg.drop 2))]
        | none => []
    match candidates with
    | [word] => .ok word
    | [] => .ok (if isNegativeNumber arg || arg.contains ' ' then .plain (String.ofList arg)
        else .unknown)
    | _ => .error .usage

/-- What an argument before any separator is. -/
def word (arg : String) : Except Refusal Word :=
  match arg.toList with
  | '-' :: c :: cs => hyphenWord ('-' :: c :: cs)
  | _ => .ok (.plain arg)

/-- What the arguments are. -/
def words : List String → Except Refusal (List Word)
  | [] => .ok []
  | arg :: later =>
    if arg = "--" then .ok (.separator :: later.map .plain)
    else do
      let first ← word arg
      let others ← words later
      return first :: others

/-- The arguments put together. -/
structure Arguments where
  verbosity : Nat := 0
  debugFile : String := "debug.txt"
  emitTree : Option String := none
  runTree : Option String := none
  program : Option String := none
  /-- The place of the program is taken. -/
  placed : Bool := false
  /-- Some argument has no place. -/
  surplus : Bool := false

namespace Arguments

/-- Takes note of an option without value. -/
def note (args : Arguments) (flag : Flag) : Except Refusal Arguments :=
  match flag with
  | .help => .error .help
  | _ => .ok { args with verbosity := args.verbosity + 1 }

/-- Takes note of an option with its value. A tree cannot be emitted and run at once. -/
def set (args : Arguments) (flag : Flag) (value : String) : Except Refusal Arguments :=
  match flag with
  | .emitTree =>
    if args.runTree.isSome then .error .usage else .ok { args with emitTree := some value }
  | .runTree =>
    if args.emitTree.isSome then .error .usage else .ok { args with runTree := some value }
  | _ => .ok { args with debugFile := value }

/-- Puts the program in its place. -/
def place (args : Arguments) (program : Option String) : Arguments :=
  { args with program := program, placed := true }

/-- The options that joined short names stand for, up to the first name that is none, and whether
there is such a name. -/
def joinedFlags : List Char → Except Refusal (List Flag × Bool)
  | [] => .ok ([], false)
  | c :: later =>
    if c = '-' || c = '=' then .error .usage
    else
      match flagNames.lookup (String.ofList ['-', c]) with
      | some flag => (joinedFlags later).map fun (flags, unknown) => (flag :: flags, unknown)
      | none => .ok ([], true)

/-- Takes note of an option without value and of the short options joined to it. -/
def noteAll (args : Arguments) (flag : Flag) (attached : Attached) : Except Refusal Arguments :=
  match attached with
  | .nothing => args.note flag
  | .value _ => .error .usage
  | .joined names => do
    let (others, unknown) ← joinedFlags names
    let args ← (flag :: others).foldlM note args
    return { args with surplus := args.surplus || unknown }

/-- Puts a plain argument in the place of the program, if it is free. -/
def offer (args : Arguments) (text : Option String) : Arguments :=
  if args.placed then { args with surplus := true } else args.place text

/-- Puts words together, from left to right. A separator goes with the program beside it. -/
def gather : List Word → Arguments → Except Refusal Arguments
  | [], args => .ok args
  | .unknown :: later, args => gather later { args with surplus := true }
  | .separator :: .plain text :: later, args => gather later (args.offer (some text))
  | .separator :: later, args => gather later (args.offer none)
  | .plain text :: .separator :: later, args => gather later (args.offer (some text))
  | .plain text :: later, args => gather later (args.offer (some text))
  | .option flag attached :: later, args =>
    if flag.takesValue then
      match attached with
      | .value text => do
        let args ← args.set flag text
        gather later args
      | _ =>
        match later with
        | .plain text :: rest => do
          let args ← args.set flag text
          gather rest args
        | _ => .error .usage
    else do
      let args ← args.noteAll flag attached
      gather later args

/-- Reads a command line. -/
def parse (argv : List String) : Except Refusal Arguments := do
  let args ← gather (← words argv) {}
  if args.surplus then .error .usage else .ok args

end Arguments

end Slang.CommandLine
