import Slang.Proofs.Scope.Update
import Slang.Session

/-!
# States that runs reach

A run passes more states than the one it leaves: between its statements, inside blocks that are
closed again, and while a line of input has been taken but not yet bound.  A property that every
value has when a statement gives it to a name is a property of every binding in all these states,
whether the run ends or a fault stops it.
-/

namespace Slang

/-! ## Bindings of a scope -/

namespace Scope

/-- Every binding of every frame has a property.  Data that mean the same are one name. -/
def All (property : Json → Value → Prop) (scope : Scope) : Prop :=
  ∀ frame ∈ scope.frames, ∀ binding ∈ frame, property binding.1.normal binding.2

variable {property : Json → Value → Prop} {scope : Scope}

theorem all_empty (property : Json → Value → Prop) : empty.All property := by
  simp [All, empty, frames]

theorem all_inner_iff {frame : Frame} :
    (inner frame scope).All property ↔
      (∀ binding ∈ frame, property binding.1.normal binding.2) ∧ scope.All property :=
  List.forall_mem_cons

theorem All.push (h : scope.All property) : scope.push.All property :=
  all_inner_iff.mpr ⟨fun _ hbinding => absurd hbinding List.not_mem_nil, h⟩

theorem All.pop (h : scope.All property) : scope.pop.All property := by
  cases scope with
  | outermost frame => exact h
  | inner frame outer => exact (all_inner_iff.mp h).2

theorem forall_mem_set
    {frame : Frame} (h : ∀ binding ∈ frame, property binding.1.normal binding.2) {name : Json}
    {value : Value} (hgiven : property name.normal value) :
    ∀ binding ∈ frame.set name value, property binding.1.normal binding.2 := by
  intro binding hbinding
  obtain rfl | hold := Frame.mem_set hbinding
  · exact hgiven
  · exact h binding hold

theorem All.define
    (h : scope.All property) {name : Json} {value : Value} (hgiven : property name.normal value) :
    (scope.define name value).All property := by
  cases scope with
  | outermost frame =>
      exact List.forall_mem_singleton.mpr (forall_mem_set (List.forall_mem_singleton.mp h) hgiven)
  | inner frame outer =>
      obtain ⟨hframe, houter⟩ := all_inner_iff.mp h
      exact all_inner_iff.mpr ⟨forall_mem_set hframe hgiven, houter⟩

theorem All.of_assign?
    (h : scope.All property) {name : Json} {value : Value} (hgiven : property name.normal value)
    {scope' : Scope} (hassign : scope.assign? name value = some scope') : scope'.All property := by
  induction scope generalizing scope' with
  | outermost frame =>
      obtain ⟨-, hscope⟩ := Option.ite_none_right_eq_some.mp hassign
      cases hscope
      exact h.define hgiven
  | inner frame outer ih =>
      obtain ⟨hframe, houter⟩ := all_inner_iff.mp h
      unfold assign? at hassign
      split at hassign
      · cases hassign
        exact h.define hgiven
      · obtain ⟨outer', houter', rfl⟩ := Option.map_eq_some_iff.mp hassign
        exact all_inner_iff.mpr ⟨hframe, ih houter houter'⟩

end Scope

/-! ## Parts of a run -/

namespace Outcome

variable {property : Json → Value → Prop}

theorem all_given
    {α : Type} {state : State} (h : state.scope.All property) (result : Except Fault α)
    {next : α → Outcome}
    (hnext : ∀ a, result = .ok a → (next a).state.scope.All property) :
    (given state result next).state.scope.All property := by
  cases result with
  | ok a => exact hnext a rfl
  | error fault => exact h

theorem all_andThen
    {first : Outcome} {next : State → Outcome} (hfirst : first.state.scope.All property)
    (hnext : ∀ state : State, state.scope.All property → (next state).state.scope.All property) :
    (first.andThen next).state.scope.All property := by
  unfold Outcome.andThen
  split
  · exact hfirst
  · exact hnext first.state hfirst

end Outcome

namespace State

variable {property : Json → Value → Prop} {state : State}

theorem all_bind
    (settings : Settings) {scope : Scope} (h : scope.All property) (value : Value)
    (event : String → Event) :
    (state.bind settings scope value event).state.scope.All property :=
  -- The new scope stays even if the value cannot be shown.
  Outcome.all_given h value.shown fun _ _ => h

theorem all_declare
    (settings : Settings) (h : state.scope.All property) {name : Json} {value : Value}
    (hgiven : property name.normal value) :
    (state.declare settings name value).state.scope.All property := by
  unfold declare
  split
  · exact h
  · apply all_bind
    apply h.define
    rwa [Frame.normal_boundName]

theorem all_upsert
    (settings : Settings) (h : state.scope.All property) {name : String} {value : Value}
    (hgiven : property (Json.text name).normal value) :
    (state.upsert settings name value).state.scope.All property := by
  unfold upsert
  split
  · rename_i hassign
    exact all_bind settings (h.of_assign? hgiven hassign) value _
  · exact all_declare settings h hgiven

end State

/-! ## Statements -/

namespace Node

/-- Somewhere in the statement a name may be given the value, after this has been made to fit. -/
inductive Gives : Node → Json → Value → Prop
  | declaration {sigil : Json} {name : Mark} {expression : Node} {value fitted : Value}
      (hfit : fit value sigil name = .ok fitted) :
      Gives (.declaration sigil name expression) name.lexeme fitted
  | assignment {target : Mark} {expression : Node} {value fitted : Value} {name : String}
      (hfit : fitAssigned value target = .ok fitted) (hname : target.name = .ok name) :
      Gives (.assignment target expression) (.text name) fitted
  | listen {prompt : Json} {target : Mark} {line : List Char} {sigil : Json} {fitted : Value}
      {name : String} (hfront : target.front = .ok sigil)
      (hfit : fit (.ofEntry line sigil) sigil target = .ok fitted)
      (hname : target.name = .ok name) :
      Gives (.listen prompt target) (.text name) fitted
  | block {node : Node} {body : List Node} {name : Json} {value : Value} (hmem : node ∈ body)
      (h : Gives node name value) : Gives (.block body) name value
  | consequent {condition consequent alternative : Node} {name : Json} {value : Value}
      (h : Gives consequent name value) :
      Gives (.conditional condition consequent alternative) name value
  | alternative {condition consequent alternative : Node} {name : Json} {value : Value}
      (h : Gives alternative name value) :
      Gives (.conditional condition consequent alternative) name value

/-- The statement gives to names only values that have a property. -/
def GivesOnly (property : Json → Value → Prop) (node : Node) : Prop :=
  ∀ name value, node.Gives name value → property name.normal value

namespace GivesOnly

variable {property : Json → Value → Prop}

theorem body {body : List Node} (h : GivesOnly property (.block body)) :
    ∀ node ∈ body, GivesOnly property node :=
  fun _ hmem name value hgives => h name value (.block hmem hgives)

theorem consequent {condition consequent alternative : Node}
    (h : GivesOnly property (.conditional condition consequent alternative)) :
    GivesOnly property consequent :=
  fun name value hgives => h name value (.consequent hgives)

theorem alternative {condition consequent alternative : Node}
    (h : GivesOnly property (.conditional condition consequent alternative)) :
    GivesOnly property alternative :=
  fun name value hgives => h name value (.alternative hgives)

end GivesOnly

variable {property : Json → Value → Prop}

theorem all_listen
    (settings : Settings) {prompt : Json} {target : Mark}
    (hgives : GivesOnly property (.listen prompt target)) {state : State}
    (h : state.scope.All property) :
    (state.listen settings prompt target).state.scope.All property := by
  unfold State.listen
  refine Outcome.all_andThen h fun state h => ?_
  refine Outcome.all_given h target.front fun sigil hfront => ?_
  refine Outcome.all_given h _ fun fitted hfit => ?_
  refine Outcome.all_given h target.name fun name hname => ?_
  exact State.all_upsert settings h (hgives (.text name) fitted (.listen hfront hfit hname))

mutual

/-- A statement keeps a property of all bindings if it gives to names only values that have it. -/
theorem all_exec
    (settings : Settings) (node : Node) (state : State) (hgives : node.GivesOnly property)
    (h : state.scope.All property) :
    (exec settings node state).state.scope.All property := by
  cases node with
  | spill value =>
      unfold exec
      refine Outcome.all_given h _ fun v _ => ?_
      exact Outcome.all_given h _ fun text _ => h
  | expression value =>
      unfold exec
      refine Outcome.all_given h _ fun v _ => ?_
      split
      · exact Outcome.all_given h _ fun text _ => h
      · exact h
  | declaration sigil name value =>
      unfold exec
      refine Outcome.all_given h _ fun v _ => ?_
      refine Outcome.all_given h _ fun fitted hfit => ?_
      exact State.all_declare settings h (hgives name.lexeme fitted (.declaration hfit))
  | assignment target value =>
      unfold exec
      refine Outcome.all_given h _ fun v _ => ?_
      refine Outcome.all_given h _ fun fitted hfit => ?_
      refine Outcome.all_given h _ fun name hname => ?_
      exact State.all_upsert settings h (hgives (.text name) fitted (.assignment hfit hname))
  | listen prompt target =>
      unfold exec
      exact all_listen settings hgives h
  | block body =>
      unfold exec
      exact (all_execAll settings body _ hgives.body h.push).pop
  | conditional condition consequent alternative =>
      unfold exec
      refine Outcome.all_given h _ fun v _ => ?_
      refine Outcome.all_given h _ fun text _ => ?_
      refine Outcome.all_andThen h fun state h => ?_
      split
      · exact all_exec settings consequent state hgives.consequent h
      · split
        · exact h
        · exact all_exec settings alternative state hgives.alternative h
  | _ =>
      unfold exec
      exact h
termination_by structural node

/-- Statements keep a property of all bindings if they give to names only values that have it. -/
theorem all_execAll
    (settings : Settings) (body : List Node) (state : State)
    (hgives : ∀ node ∈ body, node.GivesOnly property) (h : state.scope.All property) :
    (execAll settings body state).state.scope.All property := by
  cases body with
  | nil =>
      unfold execAll
      exact h
  | cons node later =>
      obtain ⟨hnode, hlater⟩ := List.forall_mem_cons.mp hgives
      unfold execAll
      refine Outcome.all_andThen ?_ fun state h => ?_
      · exact all_exec settings node state hnode h
      · exact all_execAll settings later state hlater h
termination_by structural body

end

/-! ## Reached states -/

/-- Running the statements in a state, a state is reached. -/
inductive Reaches (settings : Settings) : List Node → State → State → Prop
  | start (body : List Node) (state : State) : Reaches settings body state state
  /-- The state that a statement leaves, also if it fails. -/
  | left (node : Node) (later : List Node) (state : State) :
      Reaches settings (node :: later) state (exec settings node state).state
  | later {node : Node} {later : List Node} {state reached : State}
      (hfault : (exec settings node state).fault = none)
      (h : Reaches settings later (exec settings node state).state reached) :
      Reaches settings (node :: later) state reached
  /-- A line has been taken off the input. -/
  | asked (prompt : Json) (target : Mark) (later : List Node) (state : State) :
      Reaches settings (.listen prompt target :: later) state
        { state with input := (takeLine state.input).2 }
  | inside {body later : List Node} {state reached : State}
      (h : Reaches settings body { state with scope := state.scope.push } reached) :
      Reaches settings (.block body :: later) state reached
  | consequent {condition consequent alternative : Node} {later : List Node}
      {state reached : State} {value : Value} {text : String}
      (hvalue : condition.eval state.scope = .ok value) (hshown : value.shown = .ok text)
      (htrue : value.isTruthy = true) (h : Reaches settings [consequent] state reached) :
      Reaches settings (.conditional condition consequent alternative :: later) state reached
  | alternative {condition consequent alternative : Node} {later : List Node}
      {state reached : State} {value : Value} {text : String}
      (hvalue : condition.eval state.scope = .ok value) (hshown : value.shown = .ok text)
      (hfalse : value.isTruthy = false) (h : Reaches settings [alternative] state reached) :
      Reaches settings (.conditional condition consequent alternative :: later) state reached

/-- The state in which a run ends is reached. -/
theorem reaches_execAll (settings : Settings) (body : List Node) (state : State) :
    Reaches settings body state (execAll settings body state).state := by
  induction body generalizing state with
  | nil => exact .start [] state
  | cons node later ih =>
      unfold execAll Outcome.andThen
      split
      · exact .left node later state
      · rename_i hfault
        exact .later hfault (ih (exec settings node state).state)

/-- In every reached state all bindings have a property if the statements give to names only values
that have it. -/
theorem Reaches.all
    {settings : Settings} {body : List Node} {state reached : State}
    (h : Reaches settings body state reached) (hgives : ∀ node ∈ body, node.GivesOnly property)
    (hstate : state.scope.All property) : reached.scope.All property := by
  induction h with
  | start body state => exact hstate
  | left node later state =>
      exact all_exec settings node state (hgives node (.head later)) hstate
  | @later node later state reached hfault h ih =>
      obtain ⟨hnode, hlater⟩ := List.forall_mem_cons.mp hgives
      exact ih hlater (all_exec settings node state hnode hstate)
  | asked prompt target later state => exact hstate
  | @inside body later state reached h ih =>
      exact ih (hgives _ (.head later)).body hstate.push
  | @consequent _ consequent _ later _ _ _ _ hvalue hshown htrue h ih =>
      exact ih (List.forall_mem_singleton.mpr (hgives _ (.head later)).consequent) hstate
  | @alternative _ _ alternative later _ _ _ _ hvalue hshown hfalse h ih =>
      exact ih (List.forall_mem_singleton.mpr (hgives _ (.head later)).alternative) hstate

end Node

/-! ## Sessions -/

/-- What a session is given to run: a source text, or a tree from elsewhere. -/
inductive ProgramUnit where
  | source (text : String)
  | tree (statements : List Node)

namespace ProgramUnit

/-- The statements of a unit; a text that cannot be parsed has none. -/
def statements : ProgramUnit → List Node
  | .source text => (Parser.program (Scan.ofSource text).tokens).toOption.getD []
  | .tree statements => statements

theorem statements_of_program {source : String} {program : List Node}
    (h : Parser.program (Scan.ofSource source).tokens = .ok program) :
    (ProgramUnit.source source).statements = program := by
  rw [statements, h]
  rfl

/-- Runs a unit. -/
def run (settings : Settings) (session : Session) : ProgramUnit → Step
  | .source text => session.runSource settings text
  | .tree statements => session.runProgram settings statements

end ProgramUnit

namespace Session

theorem state_runProgram (settings : Settings) (session : Session) (program : List Node) :
    (session.runProgram settings program).session.state =
      (Node.execAll settings program session.state).state := by
  unfold runProgram
  dsimp only
  split <;> rfl

/-- A unit leaves the state that its statements leave. -/
theorem state_run (settings : Settings) (session : Session) (unit : ProgramUnit) :
    (unit.run settings session).session.state =
      (Node.execAll settings unit.statements session.state).state := by
  cases unit with
  | tree statements => exact state_runProgram settings session statements
  | source text =>
      simp only [ProgramUnit.run, ProgramUnit.statements, runSource]
      cases hprogram : Parser.program (Scan.ofSource text).tokens with
      | error e => rfl
      | ok program => exact state_runProgram settings session program

/-- Running units one after the other in a session, a state is reached. -/
inductive Reaches (settings : Settings) : List ProgramUnit → Session → State → Prop
  | start (units : List ProgramUnit) (session : Session) :
      Reaches settings units session session.state
  | during {unit : ProgramUnit} {later : List ProgramUnit} {session : Session} {state : State}
      (h : Node.Reaches settings unit.statements session.state state) :
      Reaches settings (unit :: later) session state
  | later {unit : ProgramUnit} {later : List ProgramUnit} {session : Session} {state : State}
      (h : Reaches settings later (unit.run settings session).session state) :
      Reaches settings (unit :: later) session state

theorem Reaches.all
    {property : Json → Value → Prop} {settings : Settings} {units : List ProgramUnit}
    {session : Session} {state : State} (h : Reaches settings units session state)
    (hgives : ∀ unit ∈ units, ∀ node ∈ unit.statements, node.GivesOnly property)
    (hsession : session.state.scope.All property) : state.scope.All property := by
  induction h with
  | start units session => exact hsession
  | @during unit later session state h => exact h.all (hgives unit (.head later)) hsession
  | @later unit later session state h ih =>
      obtain ⟨hunit, hlater⟩ := List.forall_mem_cons.mp hgives
      apply ih hlater
      rw [state_run]
      exact Node.all_execAll settings unit.statements session.state hunit hsession

end Session

end Slang
