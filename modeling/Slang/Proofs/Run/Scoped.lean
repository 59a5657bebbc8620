import Mathlib.Data.Finset.Lattice.Lemmas
import Slang.Proofs.Run.Isolation
import Slang.Proofs.Run.Safe
import Slang.Proofs.Run.Sequence

/-!
# Scoped programs

Some of the names that are bound after a statement can be read off the statement: those that it
gives a value outside of blocks, whichever branches are taken.  A program is scoped if it reads no
other names than those that are bound for this reason, or were bound before.  Running it, no
variable is found to be undefined, however the conditions turn out and whatever is read from the
input.
-/

namespace Slang

/-! ## Surely bound names -/

/-- The name under which data can be looked up. -/
def Json.names : Json → Finset String
  | .text name => {name}
  | _ => ∅

/-- The name of the variable that a mark stands for, if it names one. -/
def Mark.names (mark : Mark) : Finset String :=
  match mark.name with
  | .ok name => {name}
  | .error _ => ∅

namespace Node

/-- The names that an expression reads, or a statement before it does anything else. -/
def reads : Node → Finset String
  | .identifier mark => mark.names
  | .group inner => reads inner
  | .unary _ operand => reads operand
  | .binary left _ right => reads left ∪ reads right
  | .spill value | .expression value | .declaration _ _ value | .assignment _ value => reads value
  | .conditional condition _ _ => reads condition
  | _ => ∅

/-- The names that are surely bound by a statement.  What a block binds is gone with its frame, and
of two branches only one is taken. -/
def adds : Node → Finset String
  | .declaration _ name _ => name.lexeme.names
  | .assignment target _ => target.names
  | .listen _ target => target.names
  | .conditional _ consequent alternative => adds consequent ∩ adds alternative
  | _ => ∅

/-- The names that are surely bound by statements. -/
def addsAll : List Node → Finset String
  | [] => ∅
  | node :: later => adds node ∪ addsAll later

mutual

/-- Where the given names are bound, the statement reads only names that are surely bound. -/
def isScoped (bound : Finset String) : Node → Bool
  | .block body => isScopedAll bound body
  | .conditional condition consequent alternative =>
    decide (reads condition ⊆ bound) && isScoped bound consequent && isScoped bound alternative
  | node => decide (reads node ⊆ bound)

/-- Where the given names are bound, the statements read only names that are surely bound. -/
def isScopedAll (bound : Finset String) : List Node → Bool
  | [] => true
  | node :: later => isScoped bound node && isScopedAll (bound ∪ adds node) later

end

end Node

/-! ## Scopes that bind names -/

namespace Scope

/-- Each of the names is bound in one of the frames. -/
def Binds (names : Finset String) (scope : Scope) : Prop :=
  ∀ name ∈ names, (scope.get? (.text name)).isSome = true

variable {names names' : Finset String} {scope : Scope}

theorem Binds.mono (h : scope.Binds names') (hsubset : names ⊆ names') : scope.Binds names :=
  fun name hname => h name (hsubset hname)

theorem binds_empty (scope : Scope) : scope.Binds ∅ :=
  fun name hname => absurd hname (Finset.notMem_empty name)

theorem Binds.union (h : scope.Binds names) (h' : scope.Binds names') :
    scope.Binds (names ∪ names') :=
  fun name hname => (Finset.mem_union.mp hname).elim (h name) (h' name)

theorem binds_singleton {name : String} (h : (scope.get? (.text name)).isSome = true) :
    scope.Binds {name} := by
  intro other hother
  rwa [Finset.mem_singleton.mp hother]

/-- No name is unbound. -/
theorem Grows.isSome_get?
    {targets : List Json} {old new : Scope} (h : old.Grows targets new) {name : Json}
    (hbound : (old.get? name).isSome = true) : (new.get? name).isSome = true := by
  rw [isSome_get?_iff, frames_eq_cons] at hbound ⊢
  obtain ⟨frame, hframe, hname⟩ := hbound
  rcases List.mem_cons.mp hframe with rfl | houter
  · exact ⟨_, .head _, h.innermost.subset hname⟩
  · have hnames : new.frames.tail.map Frame.names = old.frames.tail.map Frame.names := by
      rw [← List.forall₂_eq_eq_eq, List.forall₂_map_left_iff, List.forall₂_map_right_iff]
      exact h.outer.flip.imp fun _ _ hkeeps => hkeeps.names
    have hmem : frame.names ∈ new.frames.tail.map Frame.names :=
      hnames ▸ List.mem_map_of_mem houter
    obtain ⟨frame', hframe', heq⟩ := List.mem_map.mp hmem
    exact ⟨frame', .tail _ hframe', heq ▸ hname⟩

theorem Binds.grows
    {targets : List Json} {old new : Scope} (h : old.Binds names) (hgrows : old.Grows targets new) :
    new.Binds names :=
  fun name hname => hgrows.isSome_get? (h name hname)

end Scope

/-! ## Failures for other reasons -/

/-- A variable is not bound. -/
def Cause.IsUndefined : Cause → Prop
  | .undefinedVariable _ => True
  | _ => False

/-- A variable is found not to be bound. -/
def Fault.IsUndefined : Fault → Prop
  | .runtime _ cause => cause.IsUndefined
  | _ => False

theorem Cause.IsOfOperand.not_isUndefined {cause : Cause} (h : cause.IsOfOperand) :
    ¬cause.IsUndefined := by
  cases cause with
  | undefinedVariable name => exact h.elim
  | _ => exact id

/-- What is computed does not fail because of a variable that is not bound. -/
abbrev Defined {α : Type} (result : Except Fault α) : Prop :=
  Yields (fun _ => True) (fun fault => ¬fault.IsUndefined) result

namespace Value

/-- An operator does not fail because of a variable. -/
abbrev Operates (result : Except Cause Value) : Prop :=
  Yields (fun _ => True) (fun cause => ¬cause.IsUndefined) result

theorem operates_binary (operator : Mark) (a b : Value) : Operates (binary operator a b) := by
  have hoperates : ∀ {result : Except Cause Value},
      Yields IsPlain Cause.IsOfOperand result → Operates result :=
    fun h => h.imp (fun _ _ => trivial) fun _ => Cause.IsOfOperand.not_isUndefined
  unfold binary
  split
  · exact hoperates (yields_add _ a b)
  split
  · rename_i f hf
    exact hoperates ((yields_operands _ a b).bind fun _ _ => yields_numeric? hf _ _)
  · trivial
  · exact id

theorem operates_unary (operator : Mark) (value : Value) : Operates (value.unary operator) := by
  unfold unary
  split
  · trivial
  split
  · cases value with
    | integer n => trivial
    | number x => trivial
    | _ => exact id
  · exact id

theorem defined_shown (value : Value) : Defined value.shown := by
  cases hshown : value.shown with
  | ok text => trivial
  | error fault =>
      obtain ⟨reason, rfl⟩ := exists_unprintable hshown
      exact id

end Value

theorem Fault.defined_locate
    (mark : Mark) {result : Except Cause Value} (h : Value.Operates result) :
    Defined (locate mark result) := by
  cases result with
  | ok value => trivial
  | error cause => exact h

namespace Mark

theorem defined_name (mark : Mark) : Defined mark.name := by
  unfold name
  split
  · trivial
  · exact id

theorem defined_front (mark : Mark) : Defined mark.front := by
  unfold front
  split
  · trivial
  · trivial
  · exact id

end Mark

theorem defined_fit (value : Value) (sigil : Json) (target : Mark) :
    Defined (fit value sigil target) := by
  unfold fit
  split
  · trivial
  · exact target.defined_name.bind fun _ _ => id

theorem defined_fitAssigned (value : Value) (target : Mark) :
    Defined (fitAssigned value target) := by
  unfold fitAssigned
  refine target.defined_front.bind fun sigil _ => ?_
  split
  · split
    · exact id
    · split
      · trivial
      · exact defined_fit _ sigil target
      · exact defined_fit _ sigil target
  · trivial

/-- A variable whose name is bound can be read. -/
theorem Scope.defined_read {scope : Scope} {mark : Mark} (h : scope.Binds mark.names) :
    Defined (scope.read mark) := by
  cases hname : mark.name with
  | error fault =>
      have hread : scope.read mark = .error fault := by simp [read, hname, bind, Except.bind]
      have hfault := mark.defined_name
      rw [hname] at hfault
      rw [hread]
      exact hfault
  | ok name =>
      have hbound : (scope.get? (.text name)).isSome = true :=
        h name (by simp [Mark.names, hname])
      obtain ⟨value, hvalue⟩ := Option.isSome_iff_exists.mp hbound
      have hread : scope.read mark = .ok value := by
        simp [read, hname, hvalue, bind, Except.bind]
      rw [hread]
      trivial

/-- An expression whose names are bound does not find a variable undefined. -/
theorem Node.defined_eval {scope : Scope} (node : Node) (h : scope.Binds node.reads) :
    Defined (node.eval scope) := by
  cases node with
  | identifier mark => exact Scope.defined_read h
  | group inner => exact defined_eval inner h
  | unary operator operand =>
      refine (defined_eval operand h).bind fun value _ => ?_
      exact Fault.defined_locate operator (value.operates_unary operator)
  | binary left operator right =>
      have hleft := defined_eval left (h.mono Finset.subset_union_left)
      have hright := defined_eval right (h.mono Finset.subset_union_right)
      refine hleft.bind fun a _ => hright.bind fun b _ => ?_
      exact Fault.defined_locate operator (Value.operates_binary operator a b)
  | number mark => trivial
  | text mark => trivial
  | character mark => trivial
  | boolean mark => trivial
  | ghosted => trivial
  | _ => exact id
termination_by structural node

/-! ## Statements -/

/-- A part of a run that reports nothing itself, finds no variable undefined, and binds the names if
it comes to its end. -/
structure Outcome.IsDefined (names : Finset String) (outcome : Outcome) : Prop where
  printed : ∀ p ∈ outcome.printed, ¬p.IsFailure
  fault : ∀ fault ∈ outcome.fault, ¬fault.IsUndefined
  binds : outcome.fault = none → outcome.state.scope.Binds names

namespace Outcome

variable {names names' : Finset String} {state : State}

theorem isDefined_of_fault_eq_none
    {outcome : Outcome} (hfault : outcome.fault = none)
    (hprinted : ∀ p ∈ outcome.printed, ¬p.IsFailure) (hbinds : outcome.state.scope.Binds names) :
    outcome.IsDefined names :=
  ⟨hprinted, by simp [hfault], fun _ => hbinds⟩

theorem isDefined_pass (state : State) : (pass state).IsDefined ∅ :=
  isDefined_of_fault_eq_none rfl (by simp [pass]) (Scope.binds_empty _)

theorem isDefined_stop {fault : Fault} (h : ¬fault.IsUndefined) :
    (stop state fault).IsDefined names := by
  refine ⟨by simp [stop], ?_, fun hnone => nomatch hnone⟩
  intro found hfound
  cases hfound
  exact h

theorem IsDefined.mono
    {outcome : Outcome} (h : outcome.IsDefined names') (hsubset : names ⊆ names') :
    outcome.IsDefined names :=
  ⟨h.printed, h.fault, fun hfault => (h.binds hfault).mono hsubset⟩

theorem isDefined_given
    {α : Type} {result : Except Fault α} {next : α → Outcome} (hresult : Defined result)
    (hnext : ∀ a, result = .ok a → (next a).IsDefined names) :
    (given state result next).IsDefined names := by
  cases result with
  | ok a => exact hnext a rfl
  | error fault => exact isDefined_stop hresult

theorem isDefined_andThen
    {first : Outcome} {next : State → Outcome} (hfirst : first.IsDefined names)
    (hnext : first.fault = none → (next first.state).IsDefined names') :
    (first.andThen next).IsDefined names' := by
  cases hfault : first.fault with
  | some fault =>
      rw [andThen_of_fault_eq_some hfault]
      exact ⟨hfirst.printed, hfirst.fault, fun hnone => by simp [hfault] at hnone⟩
  | none =>
      have hsecond := hnext hfault
      rw [andThen_of_fault_eq_none hfault]
      refine ⟨?_, hsecond.fault, hsecond.binds⟩
      intro p hp
      rcases List.mem_append.mp hp with hp | hp
      · exact hfirst.printed p hp
      · exact hsecond.printed p hp

end Outcome

namespace State

theorem isDefined_bind
    (settings : Settings) (state : State) {names : Finset String} {scope : Scope}
    (h : scope.Binds names) (value : Value) (event : String → Event) :
    (state.bind settings scope value event).IsDefined names :=
  Outcome.isDefined_given value.defined_shown fun _ _ =>
    Outcome.isDefined_of_fault_eq_none rfl (by simp) h

theorem isDefined_declare
    (settings : Settings) (name : Json) (value : Value) (state : State) :
    (state.declare settings name value).IsDefined name.names := by
  unfold declare
  split
  · exact Outcome.isDefined_stop id
  · apply isDefined_bind
    cases name with
    | text name => exact Scope.binds_singleton (by simp [Frame.boundName])
    | _ => exact Scope.binds_empty _

theorem isDefined_upsert
    (settings : Settings) (name : String) (value : Value) (state : State) :
    (state.upsert settings name value).IsDefined {name} := by
  unfold upsert
  split
  · rename_i scope hassign
    refine isDefined_bind settings state (Scope.binds_singleton ?_) value _
    rw [Scope.get?_of_assign? hassign, if_pos rfl]
    rfl
  · exact isDefined_declare settings (.text name) value state

theorem isDefined_upsert_name
    (settings : Settings) (target : Mark) (value : Value) (state : State) :
    (Outcome.given state target.name fun name => state.upsert settings name value).IsDefined
      target.names := by
  refine Outcome.isDefined_given target.defined_name fun name hname => ?_
  have hnames : target.names = {name} := by rw [Mark.names, hname]
  rw [hnames]
  exact isDefined_upsert settings name value state

theorem isDefined_listen (settings : Settings) (prompt : Json) (target : Mark) (state : State) :
    (state.listen settings prompt target).IsDefined target.names := by
  unfold listen
  have hasked : (⟨{ state with input := (takeLine state.input).2 }, [.prompt prompt.shown], [],
      none⟩ : Outcome).IsDefined ∅ :=
    Outcome.isDefined_of_fault_eq_none rfl (by simp [Printed.IsFailure]) (Scope.binds_empty _)
  refine Outcome.isDefined_andThen hasked fun _ => ?_
  refine Outcome.isDefined_given target.defined_front fun sigil _ => ?_
  refine Outcome.isDefined_given (defined_fit _ sigil target) fun value _ => ?_
  exact isDefined_upsert_name settings target value _

end State

namespace Node

theorem adds_of_isAbsent {node : Node} (h : node.isAbsent = true) : node.adds = ∅ := by
  cases node with
  | absent => rfl
  | _ => cases h

theorem isDefined_block
    {settings : Settings} {body : List Node} {state : State} {names : Finset String}
    (h : (execAll settings body { state with scope := state.scope.push }).IsDefined names) :
    (exec settings (.block body) state).IsDefined ∅ := by
  unfold exec
  exact ⟨h.printed, h.fault, fun _ => Scope.binds_empty _⟩

mutual

/-- A scoped statement finds no variable undefined and binds what it surely binds. -/
theorem isDefined_exec
    (settings : Settings) (node : Node) {bound : Finset String} {state : State}
    (hscoped : isScoped bound node = true) (hbound : state.scope.Binds bound) :
    (exec settings node state).IsDefined node.adds := by
  have heval : ∀ value : Node, value.reads ⊆ bound → Defined (value.eval state.scope) :=
    fun value hreads => defined_eval value (hbound.mono hreads)
  cases node with
  | spill value =>
      unfold exec
      refine Outcome.isDefined_given (heval value (of_decide_eq_true hscoped)) fun v _ => ?_
      refine Outcome.isDefined_given v.defined_shown fun text _ => ?_
      exact Outcome.isDefined_of_fault_eq_none rfl (by simp [Printed.IsFailure])
        (Scope.binds_empty _)
  | expression value =>
      unfold exec
      refine Outcome.isDefined_given (heval value (of_decide_eq_true hscoped)) fun v _ => ?_
      split
      · refine Outcome.isDefined_given v.defined_shown fun text _ => ?_
        exact Outcome.isDefined_of_fault_eq_none rfl (by simp [Printed.IsFailure])
          (Scope.binds_empty _)
      · exact Outcome.isDefined_pass state
  | declaration sigil name value =>
      unfold exec
      refine Outcome.isDefined_given (heval value (of_decide_eq_true hscoped)) fun v _ => ?_
      refine Outcome.isDefined_given (defined_fit v sigil name) fun v _ => ?_
      exact State.isDefined_declare settings name.lexeme v state
  | assignment target value =>
      unfold exec
      refine Outcome.isDefined_given (heval value (of_decide_eq_true hscoped)) fun v _ => ?_
      refine Outcome.isDefined_given (defined_fitAssigned v target) fun v _ => ?_
      exact State.isDefined_upsert_name settings target v state
  | listen prompt target =>
      unfold exec
      exact State.isDefined_listen settings prompt target state
  | block body =>
      have hpushed : state.scope.push.Binds bound := hbound
      exact isDefined_block (isDefined_execAll settings body hscoped hpushed)
  | conditional condition consequent alternative =>
      simp only [isScoped, Bool.and_eq_true, decide_eq_true_eq] at hscoped
      obtain ⟨⟨hcondition, hconsequent⟩, halternative⟩ := hscoped
      unfold exec adds
      refine Outcome.isDefined_given (heval condition hcondition) fun v _ => ?_
      refine Outcome.isDefined_given v.defined_shown fun text _ => ?_
      refine Outcome.isDefined_andThen ⟨by simp, by simp, fun _ => hbound⟩ fun _ => ?_
      split
      · exact (isDefined_exec settings consequent hconsequent hbound).mono Finset.inter_subset_left
      · split
        · rename_i habsent
          rw [adds_of_isAbsent habsent, Finset.inter_empty]
          exact Outcome.isDefined_pass state
        · exact (isDefined_exec settings alternative halternative hbound).mono
            Finset.inter_subset_right
  | _ =>
      unfold exec
      exact Outcome.isDefined_stop id
termination_by structural node

/-- Scoped statements find no variable undefined and bind what they surely bind. -/
theorem isDefined_execAll
    (settings : Settings) (body : List Node) {bound : Finset String} {state : State}
    (hscoped : isScopedAll bound body = true) (hbound : state.scope.Binds bound) :
    (execAll settings body state).IsDefined (addsAll body) := by
  cases body with
  | nil =>
      unfold execAll
      exact Outcome.isDefined_pass state
  | cons node later =>
      obtain ⟨hnode, hlater⟩ := (Bool.and_eq_true _ _).mp hscoped
      have hfirst := isDefined_exec settings node hnode hbound
      unfold execAll addsAll
      refine Outcome.isDefined_andThen hfirst fun hfault => ?_
      -- What was bound before the rest of the statements is bound while they run and after them.
      have hadds := hfirst.binds hfault
      have hstill := hbound.grows (grows_exec settings node state)
      have hrest := isDefined_execAll settings later hlater (hstill.union hadds)
      refine ⟨hrest.printed, hrest.fault, fun hnone => ?_⟩
      exact (hadds.grows (grows_execAll settings later _)).union (hrest.binds hnone)
termination_by structural body

end

end Node

end Slang
