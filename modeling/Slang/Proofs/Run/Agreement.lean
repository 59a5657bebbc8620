import Slang.Proofs.Scope.Update
import Slang.Run.Exec

/-!
# Runs in scopes that agree

Two scopes agree if every name has the same value in both, however many frames they have and however
the bindings lie in them.  A run cannot tell them apart: it prints the same, reads the same input,
ends with the same fault or with none, and leaves scopes that agree again.

The frame of a block lies on top of both scopes, and after the block the scopes below have to agree.
So the relation that a run keeps says more: some innermost frames are the same in both scopes, and
the scopes below them agree.
-/

namespace Slang

namespace Scope

/-- Every name is looked up alike. -/
def Agrees (a b : Scope) : Prop :=
  ∀ name : String, a.get? (.text name) = b.get? (.text name)

/-- The given number of innermost frames are the same, and the scopes below them agree. -/
inductive AgreesBelow : Nat → Scope → Scope → Prop
  | agree {a b : Scope} (h : a.Agrees b) : AgreesBelow 0 a b
  | inner {n : Nat} {a b : Scope} (frame : Frame) (h : AgreesBelow n a b) :
      AgreesBelow (n + 1) (.inner frame a) (.inner frame b)

namespace AgreesBelow

variable {n : Nat} {a b : Scope}

theorem agrees (h : AgreesBelow n a b) : a.Agrees b := by
  induction h with
  | agree h => exact h
  | inner frame h ih =>
      intro name
      simp only [get?, ih name]

theorem push (h : AgreesBelow n a b) : AgreesBelow (n + 1) a.push b.push :=
  .inner [] h

theorem pop (h : AgreesBelow (n + 1) a b) : AgreesBelow n a.pop b.pop := by
  cases h with
  | inner frame h => exact h

theorem define_text (h : AgreesBelow n a b) (name : String) (value : Value) :
    AgreesBelow n (a.define (.text name) value) (b.define (.text name) value) := by
  cases h with
  | agree h =>
      refine .agree fun other => ?_
      rw [get?_define, get?_define, h other]
  | inner frame h => exact .inner _ h

/-- A declaration may find its name written differently in the two frames, but not a text. -/
theorem define_boundName (h : AgreesBelow n a b) (name : Json) (value : Value) :
    AgreesBelow n (a.define (a.innermost.boundName name) value)
      (b.define (b.innermost.boundName name) value) := by
  cases h with
  | inner frame h => exact .inner _ h
  | agree h =>
      by_cases htext : ∃ s, name = .text s
      · obtain ⟨s, rfl⟩ := htext
        exact define_text (.agree h) s value
      · refine .agree fun other => ?_
        have hother : ∀ frame : Frame, frame.boundName name ≠ .text other :=
          fun frame hname => htext ⟨other, Frame.eq_text_of_boundName hname⟩
        rw [get?_define, get?_define, if_neg (hother _), if_neg (hother _), h other]

/-- A name is rebound in both scopes or in neither, and then in corresponding frames. -/
theorem assign?_cases (h : AgreesBelow n a b) (name : String) (value : Value) :
    a.assign? (.text name) value = none ∧ b.assign? (.text name) value = none ∨
      ∃ a' b', a.assign? (.text name) value = some a' ∧ b.assign? (.text name) value = some b' ∧
        AgreesBelow n a' b' := by
  induction h with
  | @agree a b h =>
      have hsome : (a.assign? (.text name) value).isSome = (b.assign? (.text name) value).isSome := by
        rw [isSome_assign?, isSome_assign?, h name]
      cases ha : a.assign? (.text name) value with
      | none =>
          rw [ha] at hsome
          exact .inl ⟨rfl, Option.isNone_iff_eq_none.mp (by simpa using hsome.symm)⟩
      | some a' =>
          rw [ha] at hsome
          obtain ⟨b', hb⟩ := Option.isSome_iff_exists.mp hsome.symm
          refine .inr ⟨a', b', rfl, hb, .agree fun other => ?_⟩
          rw [get?_of_assign? ha, get?_of_assign? hb, h other]
  | @inner n a b frame h ih =>
      simp only [Scope.assign?]
      by_cases hframe : (frame.get? (.text name)).isSome = true
      · rw [if_pos hframe, if_pos hframe]
        exact .inr ⟨_, _, rfl, rfl, .inner _ h⟩
      · rw [if_neg hframe, if_neg hframe]
        rcases ih with ⟨ha, hb⟩ | ⟨a', b', ha, hb, h'⟩
        · exact .inl ⟨by rw [ha]; rfl, by rw [hb]; rfl⟩
        · exact .inr ⟨_, _, by rw [ha]; rfl, by rw [hb]; rfl, .inner frame h'⟩

end AgreesBelow

/-- A variable is read alike. -/
theorem Agrees.read_eq {a b : Scope} (h : a.Agrees b) (mark : Mark) : a.read mark = b.read mark := by
  unfold read
  cases mark.name with
  | error fault => rfl
  | ok name => simp only [bind, Except.bind, h name]

theorem Agrees.eval_eq {a b : Scope} (h : a.Agrees b) (e : Node) : e.eval a = e.eval b := by
  induction e using Node.eval.induct with
  | case6 mark => exact h.read_eq mark
  | case7 inner ih => simpa only [Node.eval] using ih
  | case8 operator operand ih => simp only [Node.eval, ih]
  | case9 left operator right ihLeft ihRight => simp only [Node.eval, ihLeft, ihRight]
  | _ => simp [Node.eval]

end Scope

/-! ## Parts of a run -/

/-- The scopes agree below the given number of frames, and the same input is left. -/
structure State.Matches (n : Nat) (first second : State) : Prop where
  scope : first.scope.AgreesBelow n second.scope
  input : first.input = second.input

/-- The same has been printed, the same fault has been met or none, and the states match. -/
structure Outcome.Matches (n : Nat) (first second : Outcome) : Prop where
  state : first.state.Matches n second.state
  printed : first.printed = second.printed
  fault : first.fault = second.fault

namespace Outcome

variable {n : Nat} {state state' : State}

theorem matches_pass (h : state.Matches n state') : (pass state).Matches n (pass state') :=
  ⟨h, rfl, rfl⟩

theorem matches_stop (h : state.Matches n state') (fault : Fault) :
    (stop state fault).Matches n (stop state' fault) :=
  ⟨h, rfl, rfl⟩

theorem matches_given
    {α : Type} (h : state.Matches n state') (result : Except Fault α) {next next' : α → Outcome}
    (hnext : ∀ a, (next a).Matches n (next' a)) :
    (given state result next).Matches n (given state' result next') := by
  cases result with
  | ok a => exact hnext a
  | error fault => exact matches_stop h fault

theorem Matches.andThen
    {first first' : Outcome} {next next' : State → Outcome} (hfirst : first.Matches n first')
    (hnext : ∀ state state', state.Matches n state' → (next state).Matches n (next' state')) :
    (first.andThen next).Matches n (first'.andThen next') := by
  unfold Outcome.andThen
  rw [← hfirst.fault]
  split
  · exact hfirst
  · have hsecond := hnext _ _ hfirst.state
    exact ⟨hsecond.state, by simp only [hfirst.printed, hsecond.printed], hsecond.fault⟩

theorem Matches.close
    {body body' : Outcome} (h : body.Matches (n + 1) body') (settings : Settings)
    (depth depth' : Nat) : (body.close settings depth).Matches n (body'.close settings depth') :=
  ⟨⟨h.state.scope.pop, h.state.input⟩, h.printed, h.fault⟩

end Outcome

namespace State

variable {n : Nat} {state state' : State}

theorem matches_bind
    (settings : Settings) (h : state.Matches n state') {scope scope' : Scope}
    (hscope : scope.AgreesBelow n scope') (value : Value) (event event' : String → Event) :
    (state.bind settings scope value event).Matches n
      (state'.bind settings scope' value event') := by
  have hbound : State.Matches n { state with scope := scope } { state' with scope := scope' } :=
    ⟨hscope, h.input⟩
  exact Outcome.matches_given hbound value.shown fun text => ⟨hbound, rfl, rfl⟩

theorem matches_declare
    (settings : Settings) (h : state.Matches n state') (name : Json) (value : Value) :
    (state.declare settings name value).Matches n (state'.declare settings name value) := by
  unfold declare
  split
  · exact Outcome.matches_stop h _
  · exact matches_bind settings h (h.scope.define_boundName name value) value _ _

theorem matches_upsert
    (settings : Settings) (h : state.Matches n state') (name : String) (value : Value) :
    (state.upsert settings name value).Matches n (state'.upsert settings name value) := by
  unfold upsert
  rcases h.scope.assign?_cases name value with ⟨hfirst, hsecond⟩ | ⟨a, b, hfirst, hsecond, hscope⟩
  · rw [hfirst, hsecond]
    exact matches_declare settings h _ value
  · rw [hfirst, hsecond]
    exact matches_bind settings h hscope value _ _

theorem matches_listen
    (settings : Settings) (h : state.Matches n state') (prompt : Json) (target : Mark) :
    (state.listen settings prompt target).Matches n (state'.listen settings prompt target) := by
  unfold listen
  rw [← h.input]
  refine Outcome.Matches.andThen ⟨⟨h.scope, rfl⟩, rfl, rfl⟩ fun state state' h => ?_
  refine Outcome.matches_given h target.front fun sigil => ?_
  refine Outcome.matches_given h (fit _ sigil target) fun value => ?_
  exact Outcome.matches_given h target.name fun name => matches_upsert settings h name value

end State

/-! ## Statements -/

namespace Node

mutual

/-- A statement does the same in states that match. -/
theorem exec_matches
    (settings : Settings) (node : Node) {n : Nat} {state state' : State}
    (h : state.Matches n state') :
    (exec settings node state).Matches n (exec settings node state') := by
  have heval : ∀ e : Node, e.eval state.scope = e.eval state'.scope :=
    h.scope.agrees.eval_eq
  cases node with
  | spill value =>
      unfold exec
      rw [heval value]
      refine Outcome.matches_given h _ fun v => ?_
      exact Outcome.matches_given h _ fun text => ⟨h, rfl, rfl⟩
  | expression value =>
      unfold exec
      rw [heval value]
      refine Outcome.matches_given h _ fun v => ?_
      split
      · exact Outcome.matches_given h _ fun text => ⟨h, rfl, rfl⟩
      · exact Outcome.matches_pass h
  | declaration sigil name value =>
      unfold exec
      rw [heval value]
      refine Outcome.matches_given h _ fun v => ?_
      exact Outcome.matches_given h _ fun v => State.matches_declare settings h name.lexeme v
  | assignment target value =>
      unfold exec
      rw [heval value]
      refine Outcome.matches_given h _ fun v => ?_
      refine Outcome.matches_given h _ fun v => ?_
      exact Outcome.matches_given h _ fun name => State.matches_upsert settings h name v
  | listen prompt target =>
      unfold exec
      exact State.matches_listen settings h prompt target
  | block body =>
      unfold exec
      have hpushed : State.Matches (n + 1) { state with scope := state.scope.push }
          { state' with scope := state'.scope.push } := ⟨h.scope.push, h.input⟩
      exact (execAll_matches settings body hpushed).close settings _ _
  | conditional condition consequent alternative =>
      unfold exec
      rw [heval condition]
      refine Outcome.matches_given h _ fun v => ?_
      refine Outcome.matches_given h _ fun text => ?_
      refine Outcome.Matches.andThen ⟨h, rfl, rfl⟩ fun state state' h => ?_
      split
      · exact exec_matches settings consequent h
      · split
        · exact Outcome.matches_pass h
        · exact exec_matches settings alternative h
  | _ =>
      unfold exec
      exact Outcome.matches_stop h _
termination_by structural node

/-- Statements do the same one after the other in states that match. -/
theorem execAll_matches
    (settings : Settings) (body : List Node) {n : Nat} {state state' : State}
    (h : state.Matches n state') :
    (execAll settings body state).Matches n (execAll settings body state') := by
  cases body with
  | nil =>
      unfold execAll
      exact Outcome.matches_pass h
  | cons node later =>
      unfold execAll
      refine (exec_matches settings node h).andThen fun state state' h => ?_
      exact execAll_matches settings later h
termination_by structural body

end

end Node

/-- A run depends on the scope only through what is looked up in it.  In two scopes that agree, the
same statements print the same, leave the same input and end with the same fault or with none, and
the scopes that they leave agree again. -/
theorem execAll_depends_only_on_lookup
    (settings : Settings) (program : List Node) (input : List Char) {a b : Scope}
    (h : a.Agrees b) :
    let first := Node.execAll settings program ⟨a, input⟩
    let second := Node.execAll settings program ⟨b, input⟩
    first.printed = second.printed ∧ first.state.input = second.state.input ∧
      first.fault = second.fault ∧ first.state.scope.Agrees second.state.scope := by
  have hstart : State.Matches 0 ⟨a, input⟩ ⟨b, input⟩ := ⟨.agree h, rfl⟩
  have hmatches := Node.execAll_matches settings program hstart
  exact ⟨hmatches.printed, hmatches.state.input, hmatches.fault, hmatches.state.scope.agrees⟩

namespace Sample

/-- A scope of two frames, the inner one of which hides a name of the outer one. -/
def nested : Scope :=
  .inner [(.text "x", .integer 1)] (.outermost [(.text "x", .integer 2), (.text "y", .integer 3)])

/-- The same look-ups in a single frame. -/
def flat : Scope :=
  .outermost [(.text "y", .integer 3), (.text "x", .integer 1)]

theorem nested_agrees_flat : nested.Agrees flat := by
  intro name
  by_cases hx : name = "x"
  · subst hx
    rfl
  · by_cases hy : name = "y"
    · subst hy
      rfl
    · simp [nested, flat, Scope.get?, Frame.get?_cons, Ne.symm hx, Ne.symm hy]

/-- The mark of a variable. -/
def mark (lexeme : String) : Mark :=
  ⟨.identifier, .text lexeme, .null, .integer 1⟩

/-- A declaration that hides a name, values that are given from inside a block to names around it,
and a fault two blocks deep. -/
def program : List Node :=
  [.declaration (.text "$") (mark "a") (.identifier (mark "y")),
    .block
      [.declaration (.text "$") (mark "x") (.identifier (mark "a")),
        .assignment (mark "y") (.identifier (mark "x")),
        .block [.listen (.text "name") (mark "@y"), .spill (.identifier (mark "z"))]]]

end Sample

theorem execAll_depends_only_on_lookup_sample :
    Sample.nested.Agrees Sample.flat ∧
    let first := Node.execAll ⟨false, 0⟩ Sample.program ⟨Sample.nested, "7".toList⟩
    let second := Node.execAll ⟨false, 0⟩ Sample.program ⟨Sample.flat, "7".toList⟩
    first.fault = some (.runtime (Sample.mark "z") (.undefinedVariable "z")) ∧
      first.printed = second.printed ∧ first.state.input = second.state.input ∧
      first.fault = second.fault ∧ first.state.scope.Agrees second.state.scope :=
  ⟨Sample.nested_agrees_flat, rfl,
    execAll_depends_only_on_lookup ⟨false, 0⟩ Sample.program "7".toList Sample.nested_agrees_flat⟩

end Slang
