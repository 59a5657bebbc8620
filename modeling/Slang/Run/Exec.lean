import Slang.Run.Eval
import Slang.Run.Event
import Slang.Run.Report
import Slang.Value.Sigil

/-!
# Executing statements

A statement changes the scope, takes lines of input, prints, and leaves events in the trace. A fault
ends the run; what was done before it stays done. The frame of a block is closed on every way out.
-/

namespace Slang

/-- How a program is run. -/
structure Settings where
  /-- Values of expressions that stand as statements are shown. -/
  interactive : Bool
  /-- The level of the trace; at level zero nothing is traced. -/
  level : Nat

/-- What a program works on. -/
structure State where
  scope : Scope
  /-- The input that has not been read. -/
  input : List Char
deriving DecidableEq

/-- What running a part of a program results in. -/
structure Outcome where
  state : State
  printed : List Printed
  traced : List Event
  fault : Option Fault

namespace Outcome

/-- Nothing happens. -/
def pass (state : State) : Outcome :=
  ⟨state, [], [], none⟩

/-- The run stops before anything happens. -/
def stop (state : State) (fault : Fault) : Outcome :=
  ⟨state, [], [], some fault⟩

/-- Goes on from the state that was reached, unless a fault has stopped the run. -/
def andThen (first : Outcome) (next : State → Outcome) : Outcome :=
  match first.fault with
  | some _ => first
  | none =>
    let second := next first.state
    { second with
      printed := first.printed ++ second.printed
      traced := first.traced ++ second.traced }

/-- Goes on with a value, or stops with the fault in its place. -/
def given (state : State) (result : Except Fault α) (next : α → Outcome) : Outcome :=
  match result with
  | .ok value => next value
  | .error fault => stop state fault

end Outcome

/-- The event, if the trace shows it. -/
def Settings.trace (settings : Settings) (event : Event) : List Event :=
  if event.level ≤ settings.level then [event] else []

/-- Takes a line off the input, without the line break that ends it. At the end of the input the
line is empty. -/
def takeLine (input : List Char) : List Char × List Char :=
  (input.takeWhile (· != '\n'), (input.dropWhile (· != '\n')).drop 1)

/-- A value as it is printed; a fault if it cannot be. -/
def Value.shown (value : Value) : Except Fault String :=
  value.render.mapError .unprintable

namespace State

/-- Goes on in a new scope, and leaves an event that shows the value that was bound there. -/
def bind (settings : Settings) (state : State) (scope : Scope) (value : Value)
    (event : String → Event) : Outcome :=
  let state := { state with scope := scope }
  .given state value.shown fun text => ⟨state, [], settings.trace (event text), none⟩

/-- Declares data as a name in the innermost frame. -/
def declare (settings : Settings) (name : Json) (value : Value) (state : State) : Outcome :=
  if name.isCompound then .stop state (.notName name)
  else
    state.bind settings (state.scope.define (state.scope.innermost.boundName name) value) value
      fun text => .defined name text state.scope.depth

/-- Rebinds a name where it is bound, or else binds it in the innermost frame. -/
def upsert (settings : Settings) (name : String) (value : Value) (state : State) : Outcome :=
  match state.scope.assign? (.text name) value with
  | some scope => state.bind settings scope value fun text => .assigned name text
  | none => state.declare settings (.text name) value

/-- Asks for a line of input and binds the variable to it. -/
def listen (settings : Settings) (prompt : Json) (target : Mark) (state : State) : Outcome :=
  let (line, input) := takeLine state.input
  let asked : Outcome := ⟨{ state with input := input }, [.prompt prompt.shown], [], none⟩
  asked.andThen fun state =>
    .given state target.front fun sigil =>
      .given state (fit (.ofEntry line sigil) sigil target) fun value =>
        .given state target.name fun name => state.upsert settings name value

end State

/-- Closes the frame of a block after its statements have been run. -/
def Outcome.close (settings : Settings) (depth : Nat) (body : Outcome) : Outcome :=
  { body with
    state := { body.state with scope := body.state.scope.pop }
    traced :=
      settings.trace (.entered depth) ++ body.traced ++ settings.trace (.left depth) }

namespace Node

mutual

/-- Executes a statement. -/
def exec (settings : Settings) : Node → State → Outcome
  | .spill value, state =>
    .given state (value.eval state.scope) fun v =>
      .given state v.shown fun text => ⟨state, [.value text], [], none⟩
  | .expression value, state =>
    .given state (value.eval state.scope) fun v =>
      if settings.interactive then
        .given state v.shown fun text => ⟨state, [.echo text], [], none⟩
      else .pass state
  | .declaration sigil name value, state =>
    .given state (value.eval state.scope) fun v =>
      .given state (fit v sigil name) fun v => state.declare settings name.lexeme v
  | .assignment target value, state =>
    .given state (value.eval state.scope) fun v =>
      .given state (fitAssigned v target) fun v =>
        .given state target.name fun name => state.upsert settings name v
  | .listen prompt target, state => state.listen settings prompt target
  | .block body, state =>
    (execAll settings body { state with scope := state.scope.push }).close settings
      (state.scope.depth + 1)
  | .conditional condition consequent alternative, state =>
    .given state (condition.eval state.scope) fun v =>
      .given state v.shown fun text =>
        let tested : Outcome := ⟨state, [], settings.trace (.tested text v.isTruthy), none⟩
        tested.andThen fun state =>
          if v.isTruthy then exec settings consequent state
          else if alternative.isAbsent then .pass state
          else exec settings alternative state
  | node, state => .stop state (.misplaced .execute node.shape?)

/-- Executes statements one after the other. -/
def execAll (settings : Settings) : List Node → State → Outcome
  | [], state => .pass state
  | node :: later, state => (exec settings node state).andThen (execAll settings later)

end

end Node

end Slang
