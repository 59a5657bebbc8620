import Slang.Proofs.Parser.Lines
import Slang.Session

/-!
# Runs look at no line

A tree may be moved to other lines before it is run.  The run then does the same in every state.
Only a fault is different: it names the new line of the mark where it happened.
-/

namespace Slang

variable (f : Nat → Nat)

/-- The fault at the mark on its new line. -/
def Fault.moved : Fault → Fault
  | .runtime mark cause => .runtime (mark.moved f) cause
  | fault => fault

/-- The failure about the new line. -/
def Failure.moved : Failure → Failure
  | .parse line text => .parse (line.movedLine f) text
  | .runtime line text => .runtime (line.movedLine f) text
  | failure => failure

/-- What is printed, with the line of a failure moved. -/
def Printed.moved : Printed → Printed
  | .failure reported => .failure (reported.moved f)
  | printed => printed

/-- The outcome with all lines in it moved. -/
def Outcome.moved (outcome : Outcome) : Outcome :=
  { outcome with
    printed := outcome.printed.map (Printed.moved f)
    fault := outcome.fault.map (Fault.moved f) }

theorem Failure.ofFault_moved (fault : Fault) :
    Failure.ofFault (fault.moved f) = (Failure.ofFault fault).moved f := by
  cases fault <;> rfl

/-- The result with its fault on the new line. -/
def movedFault {α : Type} (result : Except Fault α) : Except Fault α :=
  result.mapError (Fault.moved f)

@[simp] theorem movedFault_error {α : Type} (fault : Fault) :
    movedFault f (.error fault : Except Fault α) = .error (fault.moved f) := rfl

theorem bind_moved
    {α β : Type} {x x' : Except Fault α} {g g' : α → Except Fault β} (hx : x' = movedFault f x)
    (hg : ∀ a, g' a = movedFault f (g a)) : (x' >>= g') = movedFault f (x >>= g) := by
  subst hx
  cases x with
  | error fault => rfl
  | ok a => exact hg a

/-! ## Variables and expressions -/

namespace Mark

variable (m : Mark)

@[simp] theorem moved_kind : (m.moved f).kind = m.kind := rfl

@[simp] theorem moved_lexeme : (m.moved f).lexeme = m.lexeme := rfl

@[simp] theorem moved_literal : (m.moved f).literal = m.literal := rfl

theorem name_moved : (m.moved f).name = movedFault f m.name := by
  unfold name
  rw [moved_lexeme]
  split <;> rfl

theorem front_moved : (m.moved f).front = movedFault f m.front := by
  unfold front
  rw [moved_lexeme]
  split <;> rfl

end Mark

theorem shape?_moved (node : Node) : (node.moved f).shape? = node.shape? := by
  cases node <;> simp [Node.moved, Node.shape?]

theorem fit_moved (value : Value) (sigil : Json) (target : Mark) :
    fit value sigil (target.moved f) = movedFault f (fit value sigil target) := by
  unfold fit
  cases Sigil.coerce value sigil with
  | ok fitted => rfl
  | error mismatch => exact bind_moved f (Mark.name_moved f target) fun name => rfl

theorem fitAssigned_moved (value : Value) (target : Mark) :
    fitAssigned value (target.moved f) = movedFault f (fitAssigned value target) := by
  unfold fitAssigned
  apply bind_moved f (Mark.front_moved f target)
  intro sigil
  rw [Mark.moved_kind]
  split
  · split
    · rfl
    · split
      · rfl
      · exact fit_moved f _ sigil target
      · exact fit_moved f _ sigil target
  · rfl

theorem read_moved (scope : Scope) (mark : Mark) :
    scope.read (mark.moved f) = movedFault f (scope.read mark) := by
  unfold Scope.read
  apply bind_moved f (Mark.name_moved f mark)
  intro name
  cases scope.get? (.text name) with
  | some value => rfl
  | none => rfl

theorem locate_moved (mark : Mark) (result : Except Cause Value) :
    Fault.locate (mark.moved f) result = movedFault f (Fault.locate mark result) := by
  cases result with
  | ok value => rfl
  | error cause => rfl

theorem eval_moved (scope : Scope) (e : Node) :
    (e.moved f).eval scope = movedFault f (e.eval scope) := by
  induction e using Node.eval.induct with
  | case6 mark => exact read_moved f scope mark
  | case7 inner ih => simpa only [Node.moved, Node.eval] using ih
  | case8 operator operand ih =>
      simp only [Node.moved, Node.eval]
      exact bind_moved f ih fun value => locate_moved f operator (value.unary operator)
  | case9 left operator right ihLeft ihRight =>
      simp only [Node.moved, Node.eval]
      apply bind_moved f ihLeft
      intro a
      exact bind_moved f ihRight fun b => locate_moved f operator (Value.binary operator a b)
  | case10 node =>
      cases node <;> simp_all [Node.moved, Node.eval, Fault.moved, Node.shape?]
  | _ =>
      simp only [Node.moved, Node.eval]
      rfl

/-! ## Parts of a run -/

namespace Outcome

theorem given_moved
    {α : Type} {state : State} {result result' : Except Fault α} {next next' : α → Outcome}
    (hresult : result' = movedFault f result) (hnext : ∀ a, next' a = (next a).moved f) :
    given state result' next' = (given state result next).moved f := by
  subst hresult
  cases result with
  | ok a => exact hnext a
  | error fault => rfl

theorem andThen_moved
    {first first' : Outcome} {next next' : State → Outcome} (hfirst : first' = first.moved f)
    (hnext : ∀ state, next' state = (next state).moved f) :
    first'.andThen next' = (first.andThen next).moved f := by
  subst hfirst
  unfold andThen
  cases hfault : first.fault with
  | some fault => simp [moved, hfault]
  | none => simp [moved, hfault, hnext first.state]

end Outcome

theorem Value.shown_moved (value : Value) : value.shown = movedFault f value.shown := by
  unfold Value.shown
  cases value.render with
  | ok text => rfl
  | error reason => rfl

namespace State

variable (settings : Settings) (state : State)

theorem bind_moved (scope : Scope) (value : Value) (event : String → Event) :
    state.bind settings scope value event = (state.bind settings scope value event).moved f :=
  Outcome.given_moved f (value.shown_moved f) fun _ => rfl

theorem declare_moved (name : Json) (value : Value) :
    state.declare settings name value = (state.declare settings name value).moved f := by
  unfold declare
  split
  · rfl
  · exact bind_moved f settings state _ value _

theorem upsert_moved (name : String) (value : Value) :
    state.upsert settings name value = (state.upsert settings name value).moved f := by
  unfold upsert
  split
  · exact bind_moved f settings state _ value _
  · exact declare_moved f settings state _ value

theorem listen_moved (prompt : Json) (target : Mark) :
    state.listen settings prompt (target.moved f) =
      (state.listen settings prompt target).moved f := by
  unfold listen
  refine Outcome.andThen_moved f ?_ fun state => ?_
  · rfl
  · apply Outcome.given_moved f (target.front_moved f)
    intro sigil
    apply Outcome.given_moved f (fit_moved f _ sigil target)
    intro value
    apply Outcome.given_moved f (target.name_moved f)
    exact fun name => state.upsert_moved f settings name value

end State

/-! ## Statements -/

namespace Node

mutual

/-- A statement does the same on its new lines. -/
theorem exec_moved (settings : Settings) (node : Node) (state : State) :
    exec settings (node.moved f) state = (exec settings node state).moved f := by
  cases node with
  | spill value =>
      simp only [moved, exec]
      apply Outcome.given_moved f (eval_moved f state.scope value)
      intro v
      exact Outcome.given_moved f (v.shown_moved f) fun text => rfl
  | expression value =>
      simp only [moved, exec]
      apply Outcome.given_moved f (eval_moved f state.scope value)
      intro v
      split
      · exact Outcome.given_moved f (v.shown_moved f) fun text => rfl
      · rfl
  | declaration sigil name value =>
      simp only [moved, exec]
      apply Outcome.given_moved f (eval_moved f state.scope value)
      intro v
      apply Outcome.given_moved f (fit_moved f v sigil name)
      exact fun v => state.declare_moved f settings name.lexeme v
  | assignment target value =>
      simp only [moved, exec]
      apply Outcome.given_moved f (eval_moved f state.scope value)
      intro v
      apply Outcome.given_moved f (fitAssigned_moved f v target)
      intro v
      exact Outcome.given_moved f (target.name_moved f) fun name =>
        state.upsert_moved f settings name v
  | listen prompt target =>
      simp only [moved, exec]
      exact state.listen_moved f settings prompt target
  | block body =>
      simp only [moved, exec]
      rw [execAll_moved settings body]
      rfl
  | conditional condition consequent alternative =>
      simp only [moved, exec]
      apply Outcome.given_moved f (eval_moved f state.scope condition)
      intro v
      apply Outcome.given_moved f (v.shown_moved f)
      intro text
      have habsent : (alternative.moved f).isAbsent = alternative.isAbsent := by
        rw [isAbsent, isAbsent, shape?_moved]
      refine Outcome.andThen_moved f ?_ fun state => ?_
      · rfl
      · rw [habsent]
        split
        · exact exec_moved settings consequent state
        · split
          · rfl
          · exact exec_moved settings alternative state
  | _ =>
      simp only [moved, exec]
      rfl
termination_by structural node

/-- Statements do the same on their new lines. -/
theorem execAll_moved (settings : Settings) (body : List Node) (state : State) :
    execAll settings (movedAll f body) state = (execAll settings body state).moved f := by
  cases body with
  | nil => rfl
  | cons node later =>
      simp only [movedAll, execAll]
      apply Outcome.andThen_moved f (exec_moved settings node state)
      exact fun state => execAll_moved settings later state
termination_by structural body

end

end Node

end Slang
