import Slang.Proofs.Run.Agreement
import Slang.Proofs.Run.Isolation

/-!
# Statements in a block of their own

Statements that are put into a block print the same, read the same input and stop in the same way as
without it, because the empty frame of the block hides nothing.  When the frame is closed, what has
been bound in it is lost.  A name that was bound before is among this only if the statements declare
it outside of other blocks: an assignment goes to the frame that binds the name, and that one lies
around the block.
-/

namespace Slang

/-! ## Names that are declared -/

namespace Node

/-- The names that a statement may declare in the frame in which it is executed.  A block declares
in a frame of its own. -/
def declared : Node → List Json
  | .declaration _ name _ => [name.lexeme]
  | .conditional _ consequent alternative => declared consequent ++ declared alternative
  | _ => []

/-- The names that statements may declare in the frame in which they are executed. -/
def declaredAll (body : List Node) : List Json :=
  body.flatMap declared

end Node

/-! ## Names that are bound outside -/

namespace Scope

theorem push_agrees (scope : Scope) : scope.push.Agrees scope :=
  fun _ => rfl

theorem Keeps.names_eq {targets : List Json} {a b : Scope} (h : a.Keeps targets b) :
    b.frames.map Frame.names = a.frames.map Frame.names := by
  rw [← List.forall₂_eq_eq_eq, List.forall₂_map_left_iff, List.forall₂_map_right_iff]
  exact h.flip.imp fun _ _ hframe => hframe.names

theorem Keeps.isSome_get? {targets : List Json} {a b : Scope} (h : a.Keeps targets b)
    (name : Json) : (b.get? name).isSome = (a.get? name).isSome := by
  have hmem : ∀ scope : Scope, (scope.get? name).isSome = true ↔
      ∃ names ∈ scope.frames.map Frame.names, name ∈ names := by
    intro scope
    simp [scope.isSome_get?_iff name]
  rw [Bool.eq_iff_iff, hmem, hmem, h.names_eq]

/-- The name is bound, but not in the innermost frame. -/
structure BoundOutside (name : String) (scope : Scope) : Prop where
  bound : (scope.get? (.text name)).isSome = true
  innermost : .text name ∉ scope.innermost.names

variable {name : String} {scope : Scope}

theorem boundOutside_push (h : (scope.get? (.text name)).isSome = true) :
    scope.push.BoundOutside name :=
  ⟨h, List.not_mem_nil⟩

namespace BoundOutside

/-- Closing the innermost frame does not change what the name stands for. -/
theorem get?_pop (h : scope.BoundOutside name) :
    scope.pop.get? (.text name) = scope.get? (.text name) := by
  obtain ⟨hbound, hinnermost⟩ := h
  cases scope with
  | outermost frame => exact absurd ((frame.isSome_get?_iff _).mp hbound) hinnermost
  | inner frame outer =>
      have hframe : frame.get? (.text name) = none := by
        rw [← Option.not_isSome_iff_eq_none, frame.isSome_get?_iff]
        exact hinnermost
      simp only [pop, get?, hframe]

theorem keeps {targets : List Json} {scope' : Scope} (h : scope.BoundOutside name)
    (hkeeps : scope.Keeps targets scope') : scope'.BoundOutside name := by
  refine ⟨(hkeeps.isSome_get? _).trans h.bound, ?_⟩
  have hnames := hkeeps.names_eq
  rw [scope.frames_eq_cons, scope'.frames_eq_cons, List.map_cons, List.map_cons] at hnames
  rw [(List.cons.inj hnames).1]
  exact h.innermost

theorem define {other : Json} (h : scope.BoundOutside name) (hother : other ≠ .text name)
    (value : Value) : (scope.define other value).BoundOutside name := by
  constructor
  · rw [get?_define, if_neg hother]
    exact h.bound
  · rw [innermost_define, ← Frame.isSome_get?_iff, Frame.get?_set, if_neg hother,
      Frame.isSome_get?_iff]
    exact h.innermost

end BoundOutside

end Scope

/-! ## Parts of a run -/

namespace Outcome

variable {name : String} {state : State}

theorem boundOutside_given
    {α : Type} (h : state.scope.BoundOutside name) (result : Except Fault α) {next : α → Outcome}
    (hnext : ∀ a, (next a).state.scope.BoundOutside name) :
    (given state result next).state.scope.BoundOutside name := by
  cases result with
  | ok a => exact hnext a
  | error fault => exact h

theorem boundOutside_andThen
    {first : Outcome} {next : State → Outcome} (hfirst : first.state.scope.BoundOutside name)
    (hnext : ∀ state : State, state.scope.BoundOutside name →
      (next state).state.scope.BoundOutside name) :
    (first.andThen next).state.scope.BoundOutside name := by
  unfold andThen
  split
  · exact hfirst
  · exact hnext first.state hfirst

end Outcome

namespace State

variable {name : String} {state : State}

theorem boundOutside_bind
    (settings : Settings) {scope : Scope} (h : scope.BoundOutside name) (value : Value)
    (event : String → Event) :
    (state.bind settings scope value event).state.scope.BoundOutside name :=
  Outcome.boundOutside_given h value.shown fun _ => h

theorem boundOutside_declare
    (settings : Settings) (h : state.scope.BoundOutside name) {other : Json}
    (hother : other ≠ .text name) (value : Value) :
    (state.declare settings other value).state.scope.BoundOutside name := by
  unfold declare
  split
  · exact h
  · have hbound : state.scope.innermost.boundName other ≠ .text name :=
      fun hname => hother (Frame.eq_text_of_boundName hname)
    exact boundOutside_bind settings (h.define hbound value) value _

/-- A name that is bound outside is rebound there.  Only a name that is bound nowhere comes into the
innermost frame. -/
theorem boundOutside_upsert
    (settings : Settings) (h : state.scope.BoundOutside name) (other : String) (value : Value) :
    (state.upsert settings other value).state.scope.BoundOutside name := by
  unfold upsert
  split
  · rename_i hassign
    exact boundOutside_bind settings (h.keeps (Scope.keeps_of_assign? hassign)) value _
  · rename_i hassign
    refine boundOutside_declare settings h ?_ value
    rintro ⟨rfl⟩
    have hbound := state.scope.isSome_assign? (.text name) value
    rw [hassign, h.bound] at hbound
    cases hbound

theorem boundOutside_listen
    (settings : Settings) (h : state.scope.BoundOutside name) (prompt : Json) (target : Mark) :
    (state.listen settings prompt target).state.scope.BoundOutside name := by
  unfold listen
  refine Outcome.boundOutside_andThen h fun state h => ?_
  refine Outcome.boundOutside_given h target.front fun sigil => ?_
  refine Outcome.boundOutside_given h (fit _ sigil target) fun value => ?_
  refine Outcome.boundOutside_given h target.name fun name => ?_
  exact boundOutside_upsert settings h name value

end State

/-! ## Statements -/

namespace Node

variable {name : String}

/-- A name that is bound outside of the innermost frame stays so unless a statement declares it. -/
theorem boundOutside_exec
    (settings : Settings) (node : Node) {state : State} (h : state.scope.BoundOutside name)
    (hdeclared : .text name ∉ node.declared) :
    (exec settings node state).state.scope.BoundOutside name := by
  cases node with
  | declaration sigil target value =>
      have htarget : target.lexeme ≠ .text name := by
        simpa [declared, eq_comm] using hdeclared
      unfold exec
      refine Outcome.boundOutside_given h _ fun v => ?_
      exact Outcome.boundOutside_given h _ fun v => State.boundOutside_declare settings h htarget v
  | conditional condition consequent alternative =>
      rw [declared, List.mem_append, not_or] at hdeclared
      unfold exec
      refine Outcome.boundOutside_given h _ fun v => ?_
      refine Outcome.boundOutside_given h _ fun text => ?_
      refine Outcome.boundOutside_andThen h fun state h => ?_
      split
      · exact boundOutside_exec settings consequent h hdeclared.1
      · split
        · exact h
        · exact boundOutside_exec settings alternative h hdeclared.2
  | spill value =>
      unfold exec
      refine Outcome.boundOutside_given h _ fun v => ?_
      exact Outcome.boundOutside_given h _ fun text => h
  | expression value =>
      unfold exec
      refine Outcome.boundOutside_given h _ fun v => ?_
      split
      · exact Outcome.boundOutside_given h _ fun text => h
      · exact h
  | assignment target value =>
      unfold exec
      refine Outcome.boundOutside_given h _ fun v => ?_
      refine Outcome.boundOutside_given h _ fun v => ?_
      exact Outcome.boundOutside_given h _ fun name => State.boundOutside_upsert settings h name v
  | listen prompt target =>
      unfold exec
      exact State.boundOutside_listen settings h prompt target
  | block body =>
      -- The frame of the block is gone, and the frames around it bind the same names.
      have hbody := grows_execAll settings body { state with scope := state.scope.push }
      exact h.keeps (keeps_exec_block settings body state hbody)
  | _ =>
      unfold exec
      exact h
termination_by structural node

theorem boundOutside_execAll
    (settings : Settings) (body : List Node) {state : State} (h : state.scope.BoundOutside name)
    (hdeclared : .text name ∉ declaredAll body) :
    (execAll settings body state).state.scope.BoundOutside name := by
  induction body generalizing state with
  | nil => exact h
  | cons node later ih =>
      rw [declaredAll, List.flatMap_cons, List.mem_append, not_or] at hdeclared
      unfold execAll
      refine Outcome.boundOutside_andThen ?_ fun state h => ?_
      · exact boundOutside_exec settings node h hdeclared.1
      · exact ih h hdeclared.2

end Node

/-- A block around statements shows in nothing but their declarations.  In every state, the block
prints the same as the statements by themselves, leaves the same input and stops with the same fault
or with none.  Afterwards a name that was bound before, and that the statements do not declare
outside of other blocks, has the same value in both scopes.  A name that was bound in no frame is
bound in none after the block. -/
theorem block_hides_only_declarations (settings : Settings) (body : List Node) (state : State) :
    let wrapped := Node.exec settings (.block body) state
    let direct := Node.execAll settings body state
    wrapped.printed = direct.printed ∧ wrapped.state.input = direct.state.input ∧
      wrapped.fault = direct.fault ∧
      (∀ name : String, (state.scope.get? (.text name)).isSome = true →
        .text name ∉ Node.declaredAll body →
        wrapped.state.scope.get? (.text name) = direct.state.scope.get? (.text name)) ∧
      ∀ name, state.scope.get? name = none → wrapped.state.scope.get? name = none := by
  intro wrapped direct
  let pushed : State := { state with scope := state.scope.push }
  let inside := Node.execAll settings body pushed
  have hwrapped : wrapped = inside.close settings (state.scope.depth + 1) := by
    simp only [wrapped, inside, pushed, Node.exec]
  have hmatches : inside.Matches 0 direct :=
    Node.execAll_matches settings body ⟨.agree state.scope.push_agrees, rfl⟩
  rw [hwrapped]
  refine ⟨hmatches.printed, hmatches.state.input, hmatches.fault, ?_, ?_⟩
  · intro name hbound hdeclared
    have houtside : inside.state.scope.BoundOutside name :=
      Node.boundOutside_execAll settings body (Scope.boundOutside_push hbound) hdeclared
    exact houtside.get?_pop.trans (hmatches.state.scope.agrees name)
  · intro name hunbound
    have hkeeps := Node.keeps_exec_block settings body state
      (Node.grows_execAll settings body pushed)
    have hsame := hkeeps.isSome_get? name
    rw [hunbound] at hsame
    rw [← hwrapped]
    exact Option.not_isSome_iff_eq_none.mp (Bool.eq_false_iff.mp hsame)

namespace Sample

/-- Statements that hide one name, assign to another one in the same frame and in a block, and then
fail. -/
def masking : List Node :=
  [.declaration (.text "$") (mark "x") (.identifier (mark "y")),
    .assignment (mark "y") (.boolean ⟨.fr, .text "fr", .null, .integer 1⟩),
    .block [.declaration (.text "@") (mark "y") .ghosted, .assignment (mark "x") .ghosted],
    .spill (.identifier (mark "z"))]

end Sample

theorem block_hides_only_declarations_sample :
    let state : State := ⟨Sample.nested, []⟩
    let wrapped := Node.exec ⟨false, 0⟩ (.block Sample.masking) state
    let direct := Node.execAll ⟨false, 0⟩ Sample.masking state
    (state.scope.get? (.text "y")).isSome = true ∧ .text "y" ∉ Node.declaredAll Sample.masking ∧
      wrapped.state.scope.get? (.text "y") = direct.state.scope.get? (.text "y") ∧
      direct.state.scope.get? (.text "y") = some (.boolean true) ∧
      state.scope.get? (.text "z") = none ∧ wrapped.state.scope.get? (.text "z") = none ∧
      wrapped.state.scope.get? (.text "x") ≠ direct.state.scope.get? (.text "x") := by
  intro state wrapped direct
  have hbound : (state.scope.get? (.text "y")).isSome = true := rfl
  have hdeclared : .text "y" ∉ Node.declaredAll Sample.masking := by decide
  have hunbound : state.scope.get? (.text "z") = none := rfl
  obtain ⟨-, -, -, hsame, hstays⟩ :=
    block_hides_only_declarations ⟨false, 0⟩ Sample.masking state
  exact ⟨hbound, hdeclared, hsame "y" hbound hdeclared, rfl, hunbound, hstays _ hunbound,
    by decide⟩

end Slang
