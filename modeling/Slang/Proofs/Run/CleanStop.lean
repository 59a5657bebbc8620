import Slang.Proofs.Grammar.Sound
import Slang.Proofs.Run.Safe
import Slang.Proofs.Run.Sequence
import Slang.Session

/-!
# Clean stops

A program that fails at run time stops between two statements.  The statement that fails has done
nothing: its expression is evaluated and its value is made to fit before anything is bound.  So the
run is the one of a shorter program, which lacks this statement and all that would have come after
it, and which ends without a failure.
-/

namespace Slang

open Grammar

namespace Node

/-! ## Where a program is cut off -/

/-- A statement that holds no other statements. -/
def isSimple : Node → Bool
  | .spill _ | .expression _ | .declaration _ _ _ | .assignment _ _ | .listen _ _ => true
  | _ => false

/-- The statement fails in the state, and nothing else happens.  A conditional fails by itself only
when its condition does. -/
inductive Fails (settings : Settings) : Node → State → Fault → Prop
  | simple {node : Node} {state : State} {fault : Fault} (hsimple : node.isSimple = true)
      (h : exec settings node state = .stop state fault) : Fails settings node state fault
  | condition {condition consequent alternative : Node} {state : State} {fault : Fault}
      (h : condition.eval state.scope = .error fault) :
      Fails settings (.conditional condition consequent alternative) state fault

/-- A branch in which only the given statements are kept. -/
def branch : List Node → Node
  | [node] => node
  | kept => .block kept

/-- Running the statements in a state, one of them is reached in another state.  It is cut off with
all that would have been executed after it.  The blocks and the branches around it are kept. -/
inductive CutAt (settings : Settings) : List Node → State → Node → State → List Node → Prop
  | here (node : Node) (later : List Node) (state : State) :
      CutAt settings (node :: later) state node state []
  | later {node cut : Node} {later kept : List Node} {state reached : State}
      (hfault : (exec settings node state).fault = none)
      (h : CutAt settings later (exec settings node state).state cut reached kept) :
      CutAt settings (node :: later) state cut reached (node :: kept)
  | inside {body later kept : List Node} {cut : Node} {state reached : State}
      (h : CutAt settings body { state with scope := state.scope.push } cut reached kept) :
      CutAt settings (.block body :: later) state cut reached [.block kept]
  | consequent {condition consequent alternative cut : Node} {later kept : List Node}
      {state reached : State} {value : Value} {text : String}
      (hvalue : condition.eval state.scope = .ok value) (hshown : value.shown = .ok text)
      (htrue : value.isTruthy = true) (h : CutAt settings [consequent] state cut reached kept) :
      CutAt settings (.conditional condition consequent alternative :: later) state cut reached
        [.conditional condition (branch kept) alternative]
  | alternative {condition consequent alternative cut : Node} {later kept : List Node}
      {state reached : State} {value : Value} {text : String}
      (hvalue : condition.eval state.scope = .ok value) (hshown : value.shown = .ok text)
      (hfalse : value.isTruthy = false) (h : CutAt settings [alternative] state cut reached kept) :
      CutAt settings (.conditional condition consequent alternative :: later) state cut reached
        [.conditional condition consequent (branch kept)]

/-- What may be kept of a single statement: nothing, or one statement in its place. -/
def IsRemnant (kept : List Node) : Prop :=
  kept = [] ∨ ∃ inner, kept = [inner] ∧ inner.isAbsent = false

theorem CutAt.isRemnant {settings : Settings} {node cut : Node} {state reached : State}
    {kept : List Node} (h : CutAt settings [node] state cut reached kept) : IsRemnant kept := by
  cases h with
  | here => exact .inl rfl
  | later hfault h => cases h
  | inside h => exact .inr ⟨_, rfl, rfl⟩
  | consequent hvalue hshown htrue h => exact .inr ⟨_, rfl, rfl⟩
  | alternative hvalue hshown hfalse h => exact .inr ⟨_, rfl, rfl⟩

/-- What comes after the statement that holds the cut is cut off as well. -/
theorem CutAt.append_later {settings : Settings} {node cut : Node} {state reached : State}
    {kept : List Node} (h : CutAt settings [node] state cut reached kept) (later : List Node) :
    CutAt settings (node :: later) state cut reached kept := by
  cases h with
  | here => exact .here node later state
  | later hfault h => cases h
  | inside h => exact .inside h
  | consequent hvalue hshown htrue h => exact .consequent hvalue hshown htrue h
  | alternative hvalue hshown hfalse h => exact .alternative hvalue hshown hfalse h

end Node

/-! ## Runs that end where another one fails -/

namespace Outcome

/-- The one run has done what the other one did before its fault. -/
structure Completes (kept stopped : Outcome) : Prop where
  fault : kept.fault = none
  printed : kept.printed = stopped.printed
  state : kept.state = stopped.state

theorem completes_stop (state : State) (fault : Fault) :
    (pass state).Completes (stop state fault) :=
  ⟨rfl, rfl, rfl⟩

theorem Completes.andThen
    {first : Outcome} (hfirst : first.fault = none) {next next' : State → Outcome}
    (h : (next first.state).Completes (next' first.state)) :
    (first.andThen next).Completes (first.andThen next') := by
  rw [andThen_of_fault_eq_none hfirst, andThen_of_fault_eq_none hfirst]
  exact ⟨h.fault, congrArg (first.printed ++ ·) h.printed, h.state⟩

theorem Completes.close
    {body body' : Outcome} (h : body.Completes body') (settings : Settings) (depth : Nat) :
    (body.close settings depth).Completes (body'.close settings depth) := by
  refine ⟨h.fault, h.printed, ?_⟩
  simp only [Outcome.close, h.state]

/-- A failure of the program comes from the value that was missing, or from what was done with
it. -/
theorem given_eq_stop
    {α : Type} {state : State} {result : Except Fault α} {next : α → Outcome} {fault : Fault}
    (h : (given state result next).fault = some fault)
    (hnext : ∀ a, (next a).fault = some fault → next a = stop state fault) :
    given state result next = stop state fault := by
  cases result with
  | ok a => exact hnext a h
  | error found =>
      cases h
      rfl

end Outcome

namespace Node

variable {settings : Settings} {state : State}

theorem exec_branch_completes
    {kept : List Node} {stopped : Outcome} (hkept : IsRemnant kept)
    (h : (execAll settings kept state).Completes stopped) :
    (exec settings (branch kept) state).Completes stopped := by
  rcases hkept with rfl | ⟨inner, rfl, -⟩
  · change (exec settings (.block []) state).Completes stopped
    rw [execAll] at h
    rw [exec, execAll]
    exact ⟨rfl, h.printed, h.state⟩
  · rw [execAll_singleton] at h
    exact h

theorem isAbsent_branch {kept : List Node} (hkept : IsRemnant kept) :
    (branch kept).isAbsent = false := by
  rcases hkept with rfl | ⟨inner, rfl, hinner⟩
  · rfl
  · exact hinner

theorem exec_conditional_of_true
    {condition : Node} {value : Value} {text : String}
    (hvalue : condition.eval state.scope = .ok value) (hshown : value.shown = .ok text)
    (htrue : value.isTruthy = true) (consequent alternative : Node) :
    exec settings (.conditional condition consequent alternative) state =
      (⟨state, [], settings.trace (.tested text true), none⟩ : Outcome).andThen
        (exec settings consequent) := by
  rw [exec, hvalue, Outcome.given, hshown, Outcome.given]
  simp only [htrue, if_true]

theorem exec_conditional_of_false
    {condition : Node} {value : Value} {text : String}
    (hvalue : condition.eval state.scope = .ok value) (hshown : value.shown = .ok text)
    (hfalse : value.isTruthy = false) (consequent : Node) {alternative : Node}
    (hpresent : alternative.isAbsent = false) :
    exec settings (.conditional condition consequent alternative) state =
      (⟨state, [], settings.trace (.tested text false), none⟩ : Outcome).andThen
        (exec settings alternative) := by
  rw [exec, hvalue, Outcome.given, hshown, Outcome.given]
  simp only [hfalse, hpresent, Bool.false_eq_true, if_false]

/-- The statements can be cut off where they fail, and what is kept of them does the same without a
failure. -/
def StopsCleanly (settings : Settings) (program : List Node) (state : State) (fault : Fault) :
    Prop :=
  ∃ cut reached kept, CutAt settings program state cut reached kept ∧
    cut.Fails settings reached fault ∧
    (execAll settings kept state).Completes (execAll settings program state)

/-- A statement that fails before it has done anything is cut off as it stands. -/
theorem Fails.stopsCleanly
    {node : Node} {fault : Fault} (h : node.Fails settings state fault)
    (hexec : exec settings node state = .stop state fault) :
    StopsCleanly settings [node] state fault := by
  refine ⟨node, state, [], .here node [] state, h, ?_⟩
  rw [execAll_singleton, hexec, execAll]
  exact Outcome.completes_stop state fault

end Node

/-! ## Statements that bind or print nothing when they fail -/

namespace State

variable {mark : Mark} {cause : Cause}

theorem fault_bind_ne_runtime
    (settings : Settings) (state : State) (scope : Scope) (value : Value) (event : String → Event) :
    (state.bind settings scope value event).fault ≠ some (.runtime mark cause) := by
  intro h
  unfold bind at h
  cases hshown : value.shown with
  | ok text =>
      rw [hshown] at h
      cases h
  | error fault =>
      obtain ⟨reason, rfl⟩ := Value.exists_unprintable hshown
      rw [hshown] at h
      cases h

theorem fault_declare_ne_runtime
    (settings : Settings) (name : Json) (value : Value) (state : State) :
    (state.declare settings name value).fault ≠ some (.runtime mark cause) := by
  unfold declare
  split
  · exact fun h => nomatch h
  · exact fault_bind_ne_runtime settings state _ value _

theorem fault_upsert_ne_runtime
    (settings : Settings) (name : String) (value : Value) (state : State) :
    (state.upsert settings name value).fault ≠ some (.runtime mark cause) := by
  unfold upsert
  split
  · exact fault_bind_ne_runtime settings state _ value _
  · exact fault_declare_ne_runtime settings _ value state

end State

namespace Node

variable {settings : Settings} {state : State} {mark : Mark} {cause : Cause}

/-- Whatever a simple statement needs is looked for before it binds or prints.  Only a listen has
asked for a line by then. -/
theorem exec_eq_stop_of_isSimple
    {node : Node} (hsimple : node.isSimple = true)
    (hlisten : ∀ prompt target, node ≠ .listen prompt target)
    (h : (exec settings node state).fault = some (.runtime mark cause)) :
    exec settings node state = .stop state (.runtime mark cause) := by
  cases node with
  | spill value =>
      unfold exec at h ⊢
      refine Outcome.given_eq_stop h fun v h => ?_
      exact Outcome.given_eq_stop h fun text h => nomatch h
  | expression value =>
      unfold exec at h ⊢
      refine Outcome.given_eq_stop h fun v h => ?_
      split at h
      · rename_i hinteractive
        rw [if_pos hinteractive]
        exact Outcome.given_eq_stop h fun text h => nomatch h
      · cases h
  | declaration sigil name value =>
      unfold exec at h ⊢
      refine Outcome.given_eq_stop h fun v h => ?_
      refine Outcome.given_eq_stop h fun v h => ?_
      exact absurd h (State.fault_declare_ne_runtime settings name.lexeme v state)
  | assignment target value =>
      unfold exec at h ⊢
      refine Outcome.given_eq_stop h fun v h => ?_
      refine Outcome.given_eq_stop h fun v h => ?_
      refine Outcome.given_eq_stop h fun name h => ?_
      exact absurd h (State.fault_upsert_ne_runtime settings name v state)
  | listen prompt target => exact (hlisten prompt target rfl).elim
  | _ => cases hsimple

end Node

/-- A line that is read for a sigil fits it. -/
theorem Sigil.exists_coerce_ofEntry {sigil : Json} (h : (ofJson? sigil).isSome = true)
    (line : List Char) : ∃ value, coerce (.ofEntry line sigil) sigil = .ok value := by
  obtain ⟨known, hknown⟩ := Option.isSome_iff_exists.mp h
  refine ⟨.ofEntry line sigil, ?_⟩
  unfold Value.ofEntry
  cases known <;> simp [coerce, check, admits, hknown, bind, Except.bind, pure, Except.pure]

/-- A variable with a sigil can be bound to every line that is read for it. -/
theorem State.fault_listen_ne_runtime
    (settings : Settings) (prompt : Json) {target : Token}
    (hkind : target.kind = .sigilIdentifier) (hfaithful : target.Faithful) (state : State)
    {mark : Mark} {cause : Cause} :
    (state.listen settings prompt target.mark).fault ≠ some (.runtime mark cause) := by
  have hfront : target.mark.front = .ok (.text (Sigil.leading target.lexeme)) := rfl
  have hname : target.mark.name = .ok (Sigil.strip target.lexeme) := rfl
  have hfit : ∀ line, ∃ value, fit (.ofEntry line (.text (Sigil.leading target.lexeme)))
      (.text (Sigil.leading target.lexeme)) target.mark = .ok value := by
    intro line
    obtain ⟨value, hvalue⟩ :=
      Sigil.exists_coerce_ofEntry (isSome_leading hfaithful hkind) line
    exact ⟨value, by rw [fit, hvalue]⟩
  obtain ⟨value, hvalue⟩ := hfit (state.input.takeWhile (· != '\n'))
  simp only [listen, takeLine]
  rw [Outcome.andThen_of_fault_eq_none rfl, hfront, Outcome.given, hvalue, Outcome.given, hname]
  exact fault_upsert_ne_runtime settings _ value _

/-! ## Statements of parsed programs -/

namespace Node

variable {settings : Settings} {state : State} {mark : Mark} {cause : Cause} {fault : Fault}

theorem stopsCleanly_of_isSimple
    {node : Node} (hsimple : node.isSimple = true)
    (hlisten : ∀ prompt target, node ≠ .listen prompt target)
    (h : (exec settings node state).fault = some (.runtime mark cause)) :
    StopsCleanly settings [node] state (.runtime mark cause) := by
  have hexec := exec_eq_stop_of_isSimple hsimple hlisten h
  exact Fails.stopsCleanly (.simple hsimple hexec) hexec

theorem StopsCleanly.block
    {body : List Node}
    (h : StopsCleanly settings body { state with scope := state.scope.push } fault) :
    StopsCleanly settings [.block body] state fault := by
  obtain ⟨cut, reached, kept, hcut, hfails, hcompletes⟩ := h
  refine ⟨cut, reached, [.block kept], .inside hcut, hfails, ?_⟩
  rw [execAll_singleton, execAll_singleton, exec, exec]
  exact hcompletes.close settings _

theorem StopsCleanly.consequent
    {condition consequent : Node} {value : Value} {text : String}
    (h : StopsCleanly settings [consequent] state fault)
    (hvalue : condition.eval state.scope = .ok value) (hshown : value.shown = .ok text)
    (htrue : value.isTruthy = true) (alternative : Node) :
    StopsCleanly settings [.conditional condition consequent alternative] state fault := by
  obtain ⟨cut, reached, kept, hcut, hfails, hcompletes⟩ := h
  refine ⟨cut, reached, _, .consequent hvalue hshown htrue hcut, hfails, ?_⟩
  rw [execAll_singleton] at hcompletes
  rw [execAll_singleton, execAll_singleton, exec_conditional_of_true hvalue hshown htrue,
    exec_conditional_of_true hvalue hshown htrue]
  exact .andThen rfl (exec_branch_completes hcut.isRemnant hcompletes)

theorem StopsCleanly.alternative
    {condition alternative : Node} {value : Value} {text : String}
    (h : StopsCleanly settings [alternative] state fault)
    (hvalue : condition.eval state.scope = .ok value) (hshown : value.shown = .ok text)
    (hfalse : value.isTruthy = false) (hpresent : alternative.isAbsent = false)
    (consequent : Node) :
    StopsCleanly settings [.conditional condition consequent alternative] state fault := by
  obtain ⟨cut, reached, kept, hcut, hfails, hcompletes⟩ := h
  refine ⟨cut, reached, _, .alternative hvalue hshown hfalse hcut, hfails, ?_⟩
  rw [execAll_singleton] at hcompletes
  rw [execAll_singleton, execAll_singleton,
    exec_conditional_of_false hvalue hshown hfalse _ (isAbsent_branch hcut.isRemnant),
    exec_conditional_of_false hvalue hshown hfalse _ hpresent]
  exact .andThen rfl (exec_branch_completes hcut.isRemnant hcompletes)

/-- A conditional fails with its condition or in the branch that is taken. -/
theorem stopsCleanly_conditional
    {condition consequent alternative : Node}
    (h : (exec settings (.conditional condition consequent alternative) state).fault =
      some (.runtime mark cause))
    (hconsequent : (exec settings consequent state).fault = some (.runtime mark cause) →
      StopsCleanly settings [consequent] state (.runtime mark cause))
    (halternative : alternative.isAbsent = false →
      (exec settings alternative state).fault = some (.runtime mark cause) →
      StopsCleanly settings [alternative] state (.runtime mark cause)) :
    StopsCleanly settings [.conditional condition consequent alternative] state
      (.runtime mark cause) := by
  cases hvalue : condition.eval state.scope with
  | error fault =>
      have hexec : exec settings (.conditional condition consequent alternative) state =
          .stop state fault := by
        rw [exec, hvalue, Outcome.given]
      rw [hexec] at h
      cases h
      exact Fails.stopsCleanly (.condition hvalue) hexec
  | ok value =>
      cases hshown : value.shown with
      | error fault =>
          obtain ⟨reason, rfl⟩ := Value.exists_unprintable hshown
          rw [exec, hvalue, Outcome.given, hshown] at h
          cases h
      | ok text =>
          cases htruth : value.isTruthy with
          | true =>
              rw [exec_conditional_of_true hvalue hshown htruth] at h
              exact (hconsequent h).consequent hvalue hshown htruth alternative
          | false =>
              cases hpresent : alternative.isAbsent with
              | true =>
                  rw [exec, hvalue, Outcome.given, hshown, Outcome.given] at h
                  simp only [htruth, hpresent, Bool.false_eq_true, if_false, if_true] at h
                  cases h
              | false =>
                  rw [exec_conditional_of_false hvalue hshown htruth _ hpresent] at h
                  exact (halternative hpresent h).alternative hvalue hshown htruth hpresent
                    consequent

end Node

namespace Grammar

open Node

variable {settings : Settings} {mark : Mark} {cause : Cause}

mutual

/-- A spelled statement that fails can be cut off where it fails. -/
theorem Spells.stopsCleanly
    {node : Node} {tokens : List Token} (h : Spells node tokens)
    (hfaithful : ∀ t ∈ tokens, t.Faithful) {state : State}
    (hfault : (exec settings node state).fault = some (.runtime mark cause)) :
    StopsCleanly settings [node] state (.runtime mark cause) := by
  cases h with
  | listen hlisten hprompt hword htarget =>
      rw [exec] at hfault
      exact absurd hfault
        (State.fault_listen_ne_runtime settings _ htarget (hfaithful _ (by simp)) state)
  | @block opening closing body tokens hopening hclosing hbody =>
      rw [exec] at hfault
      have hmem : ∀ t ∈ tokens, t.Faithful := fun t ht => hfaithful t (by simp [ht])
      exact (hbody.stopsCleanly hmem hfault).block
  | @conditional bet condition consequent test first hbet hcondition hconsequent =>
      refine stopsCleanly_conditional hfault ?_ fun habsent => nomatch habsent
      exact hconsequent.stopsCleanly fun t ht => hfaithful t (by simp [ht])
  | @alternative bet deadass condition consequent otherwise test first second hbet hcondition
      hconsequent hdeadass hotherwise =>
      refine stopsCleanly_conditional hfault ?_ fun _ => ?_
      · exact hconsequent.stopsCleanly fun t ht => hfaithful t (by simp [ht])
      · exact hotherwise.stopsCleanly fun t ht => hfaithful t (by simp [ht])
  | _ => exact stopsCleanly_of_isSimple rfl (fun _ _ hlisten => nomatch hlisten) hfault

/-- Spelled statements that fail can be cut off where they fail. -/
theorem SpellsAll.stopsCleanly
    {body : List Node} {tokens : List Token} (h : SpellsAll body tokens)
    (hfaithful : ∀ t ∈ tokens, t.Faithful) {state : State}
    (hfault : (execAll settings body state).fault = some (.runtime mark cause)) :
    StopsCleanly settings body state (.runtime mark cause) := by
  cases h with
  | nil =>
      rw [execAll] at hfault
      cases hfault
  | @cons node later first rest hnode hlater =>
      rw [execAll] at hfault
      cases hfirst : (exec settings node state).fault with
      | some fault =>
          rw [Outcome.andThen_of_fault_eq_some hfirst] at hfault
          obtain ⟨cut, reached, kept, hcut, hfails, hcompletes⟩ :=
            hnode.stopsCleanly (fun t ht => hfaithful t (by simp [ht])) hfault
          refine ⟨cut, reached, kept, hcut.append_later later, hfails, ?_⟩
          rw [execAll_singleton] at hcompletes
          rw [execAll, Outcome.andThen_of_fault_eq_some hfirst]
          exact hcompletes
      | none =>
          rw [Outcome.andThen_of_fault_eq_none hfirst] at hfault
          obtain ⟨cut, reached, kept, hcut, hfails, hcompletes⟩ :=
            hlater.stopsCleanly (fun t ht => hfaithful t (by simp [ht])) hfault
          refine ⟨cut, reached, node :: kept, .later hfirst hcut, hfails, ?_⟩
          rw [execAll, execAll]
          exact .andThen hfirst hcompletes

end

end Grammar

/-- A runtime error is a clean stop between two statements.  There is a statement that fails without
doing anything, and a program in which it is cut off with all that would have been executed later.
This program runs to its end from the same state.  It prints the same but for the error, and leaves
the same bindings in all frames and the same input. -/
theorem Session.runtime_error_is_clean_stop
    (settings : Settings) (session : Session) {source : String} {program : List Node}
    (hprogram : Parser.program (Scan.ofSource source).tokens = .ok program)
    {mark : Mark} {cause : Cause}
    (hfault : (Node.execAll settings program session.state).fault = some (.runtime mark cause)) :
    ∃ cut reached kept,
      Node.CutAt settings program session.state cut reached kept ∧
      cut.Fails settings reached (.runtime mark cause) ∧
      let stopped := session.runProgram settings program
      let shorter := session.runProgram settings kept
      stopped.ok = false ∧ shorter.ok = true ∧
        stopped.printed = shorter.printed ++ [.failure (.runtime mark.line cause.message)] ∧
        stopped.session.state = shorter.session.state := by
  obtain ⟨tokens, hspelled, hfaithful⟩ := exists_faithful_spelling hprogram
  obtain ⟨cut, reached, kept, hcut, hfails, hcompletes⟩ :=
    hspelled.stopsCleanly hfaithful hfault
  refine ⟨cut, reached, kept, hcut, hfails, ?_⟩
  simp [runProgram, hfault, hcompletes.fault, hcompletes.printed, hcompletes.state, fail,
    Failure.ofFault]

namespace Sample

/-- A text that gives a variable a value from inside a block and then fails there. -/
def halting : String := "bet fr : a as \"y\" $b as a spill b"

/-- The variable whose declaration fails. -/
def integer : Mark := ⟨.identifier, .text "b", .null, .integer 1⟩

/-- The statements of the text. -/
def halted : List Node :=
  let a : Mark := ⟨.identifier, .text "a", .null, .integer 1⟩
  [.conditional (.boolean ⟨.fr, .text "fr", .null, .integer 1⟩)
    (.block [.assignment a (.text ⟨.text, .text "\"y\"", .text "y", .integer 1⟩),
      .declaration (.text "$") integer (.identifier a),
      .spill (.identifier integer)])
    .absent]

/-- A session in which the variable has another value. -/
def begun : Session := ⟨⟨.outermost [(.text "a", .text "x")], []⟩, false⟩

theorem program_halting : Parser.program (Scan.ofSource halting).tokens = .ok halted := by
  have htokens : (Scan.ofSource halting).tokens =
      [⟨.bet, "bet", .absent, 1⟩, ⟨.fr, "fr", .absent, 1⟩, ⟨.colon, ":", .absent, 1⟩,
        ⟨.identifier, "a", .absent, 1⟩, ⟨.asWord, "as", .absent, 1⟩,
        ⟨.text, "\"y\"", .text "y", 1⟩, ⟨.sigilIdentifier, "$b", .absent, 1⟩,
        ⟨.asWord, "as", .absent, 1⟩, ⟨.identifier, "a", .absent, 1⟩,
        ⟨.spill, "spill", .absent, 1⟩, ⟨.identifier, "b", .absent, 1⟩,
        ⟨.endOfFile, "", .absent, 1⟩] := by decide +kernel
  rw [htokens]
  cbv

end Sample

theorem Session.runtime_error_is_clean_stop_sample :
    let settings : Settings := ⟨false, 0⟩
    let mismatch : Cause := .typeMismatch "b" (.kind .integer .text)
    (Node.execAll settings Sample.halted Sample.begun.state).fault =
      some (.runtime Sample.integer mismatch) ∧
    ∃ cut reached kept,
      Node.CutAt settings Sample.halted Sample.begun.state cut reached kept ∧
      cut.Fails settings reached (.runtime Sample.integer mismatch) ∧
      let stopped := Sample.begun.runProgram settings Sample.halted
      let shorter := Sample.begun.runProgram settings kept
      stopped.ok = false ∧ shorter.ok = true ∧
        stopped.printed = shorter.printed ++
          [.failure (.runtime Sample.integer.line mismatch.message)] ∧
        stopped.session.state = shorter.session.state := by
  intro settings mismatch
  have hfault : (Node.execAll settings Sample.halted Sample.begun.state).fault =
      some (.runtime Sample.integer mismatch) := rfl
  exact ⟨hfault, runtime_error_is_clean_stop settings Sample.begun Sample.program_halting hfault⟩

end Slang
