import Slang.Session

/-!
# Blocks in the trace

A trace of level three or more shows where a block is entered, where it is left, and at which depth
a name is defined.  These depths are read off the scope, one at a time.  Nothing counts the blocks
of the trace itself.  That the depths fit together is a fact about whole runs: a statement leaves
the scope as deep as it was, and what it traces is a row of nested blocks, whether it ends or a fault
passes through it.
-/

namespace Slang

namespace Event

/-! ## Nested blocks -/

/-- A block is entered. -/
def isEntered : Event → Bool
  | .entered _ => true
  | _ => false

/-- A block is left. -/
def isLeft : Event → Bool
  | .left _ => true
  | _ => false

/-- The event has no depth. -/
def isFlat : Event → Bool
  | .entered _ | .left _ | .defined _ _ _ => false
  | _ => true

/-- How many blocks have been entered and not yet left. -/
def openBlocks (events : List Event) : Int :=
  events.countP isEntered - events.countP isLeft

@[simp] theorem openBlocks_nil : openBlocks [] = 0 := rfl

theorem openBlocks_append (first later : List Event) :
    openBlocks (first ++ later) = openBlocks first + openBlocks later := by
  simp only [openBlocks, List.countP_append]
  omega

theorem openBlocks_cons (event : Event) (later : List Event) :
    openBlocks (event :: later) = openBlocks [event] + openBlocks later :=
  openBlocks_append [event] later

@[simp] theorem openBlocks_entered (depth : Nat) : openBlocks [.entered depth] = 1 := rfl

@[simp] theorem openBlocks_left (depth : Nat) : openBlocks [.left depth] = -1 := rfl

/-- A row of events inside as many blocks as the depth says.  Every block that is entered in the row
is left in it, after what happens inside, and both events give the same depth. -/
inductive Nested : Nat → List Event → Prop
  | nil (depth : Nat) : Nested depth []
  | flat {depth : Nat} {event : Event} (h : event.isFlat = true) : Nested depth [event]
  | defined (name : Json) (value : String) (depth : Nat) :
      Nested depth [.defined name value depth]
  | block {depth : Nat} {inside : List Event} (hinside : Nested (depth + 1) inside) :
      Nested depth (.entered (depth + 1) :: (inside ++ [.left (depth + 1)]))
  | append {depth : Nat} {first later : List Event} (hfirst : Nested depth first)
      (hlater : Nested depth later) : Nested depth (first ++ later)

/-- What the depth of an event says about the events before and after it, if all of them happen
inside as many blocks as `depth` says. -/
def Fits (depth : Nat) (before after : List Event) : Event → Prop
  | .entered d =>
    d = depth + openBlocks before + 1 ∧
      ∃ inside rest, after = inside ++ .left d :: rest ∧ Nested d inside
  | .left d =>
    d = depth + openBlocks before ∧
      ∃ earlier inside, before = earlier ++ .entered d :: inside ∧ Nested d inside
  | .defined _ _ d => d = depth + openBlocks before
  | _ => True

theorem fits_of_isFlat
    {event : Event} (h : event.isFlat = true) (depth : Nat) (before after : List Event) :
    Fits depth before after event := by
  cases event with
  | entered | left | defined => simp [isFlat] at h
  | _ => trivial

/-- Events in front of all others count with the blocks that they leave open. -/
theorem Fits.prepend
    {depth depth' : Nat} {before after first : List Event} {event : Event}
    (h : Fits depth before after event) (hfirst : depth' + openBlocks first = depth) :
    Fits depth' (first ++ before) after event := by
  have hopen : depth' + openBlocks (first ++ before) = depth + openBlocks before := by
    rw [openBlocks_append]
    omega
  cases event with
  | entered d => exact ⟨hopen ▸ h.1, h.2⟩
  | left d =>
      obtain ⟨hdepth, earlier, inside, rfl, hinside⟩ := h
      exact ⟨hopen ▸ hdepth, first ++ earlier, inside, by simp, hinside⟩
  | defined name value d => exact Eq.trans h hopen.symm
  | _ => trivial

/-- What happens later makes no difference to an event. -/
theorem Fits.append
    {depth : Nat} {before after : List Event} {event : Event} (h : Fits depth before after event)
    (later : List Event) : Fits depth before (after ++ later) event := by
  cases event with
  | entered d =>
      obtain ⟨hdepth, inside, rest, rfl, hinside⟩ := h
      exact ⟨hdepth, inside, rest ++ later, by simp, hinside⟩
  | left | defined => exact h
  | _ => trivial

/-- An event of two rows is an event of the first one or of the second one. -/
theorem append_eq_append_cons
    {first later before after : List Event} {event : Event}
    (h : first ++ later = before ++ event :: after) :
    (∃ tail, first = before ++ event :: tail ∧ after = tail ++ later) ∨
      ∃ more, before = first ++ more ∧ later = more ++ event :: after := by
  rcases List.append_eq_append_iff.mp h with ⟨more, hbefore, hlater⟩ | ⟨more, hfirst, hevent⟩
  · exact .inr ⟨more, hbefore, hlater⟩
  · cases more with
    | nil => exact .inr ⟨[], by simpa using hfirst.symm, by simpa using hevent.symm⟩
    | cons e tail =>
        obtain ⟨rfl, hafter⟩ := List.cons.inj hevent
        exact .inl ⟨tail, hfirst, hafter⟩

theorem eq_of_singleton_eq
    {before after : List Event} {event event' : Event} (h : [event'] = before ++ event :: after) :
    before = [] ∧ event = event' ∧ after = [] := by
  simpa [List.singleton_eq_append_iff] using h

namespace Nested

variable {depth : Nat} {events : List Event}

/-- As many blocks are left as are entered. -/
theorem openBlocks_eq (h : Nested depth events) : openBlocks events = 0 := by
  induction h with
  | nil => rfl
  | @flat _ event h =>
      cases event with
      | entered | left | defined => simp [isFlat] at h
      | _ => rfl
  | defined => rfl
  | @block depth inside _ ih =>
      rw [openBlocks_cons, openBlocks_append, ih]
      rfl
  | append _ _ ihFirst ihLater => rw [openBlocks_append, ihFirst, ihLater, Int.zero_add]

/-- Every event of a nested row fits into its place. -/
theorem fits
    {before after : List Event} {event : Event} (h : Nested depth events)
    (heq : events = before ++ event :: after) : Fits depth before after event := by
  induction h generalizing before after with
  | nil => simp at heq
  | flat h =>
      obtain ⟨rfl, rfl, rfl⟩ := eq_of_singleton_eq heq
      exact fits_of_isFlat h _ _ _
  | defined name value depth =>
      obtain ⟨rfl, rfl, rfl⟩ := eq_of_singleton_eq heq
      simp [Fits]
  | @block depth inside hinside ih =>
      cases before with
      | nil =>
          obtain ⟨rfl, rfl⟩ := List.cons.inj heq
          exact ⟨by simp, inside, [], rfl, hinside⟩
      | cons first before =>
          obtain ⟨rfl, hrest⟩ := List.cons.inj heq
          rcases append_eq_append_cons hrest with ⟨tail, hin, rfl⟩ | ⟨more, rfl, hleft⟩
          · have hinner : Fits depth ([.entered (depth + 1)] ++ before) tail event :=
              (ih hin).prepend rfl
            exact hinner.append _
          · -- The event is the one that leaves the block.
            obtain ⟨rfl, rfl, rfl⟩ := eq_of_singleton_eq hleft
            rw [List.append_nil]
            refine ⟨?_, [], inside, rfl, hinside⟩
            rw [openBlocks_cons, openBlocks_entered, hinside.openBlocks_eq]
            rfl
  | append hfirst _ ihFirst ihLater =>
      rcases append_eq_append_cons heq with ⟨tail, hin, rfl⟩ | ⟨more, rfl, hin⟩
      · exact (ihFirst hin).append _
      · exact (ihLater hin).prepend (by rw [hfirst.openBlocks_eq, Int.add_zero])

end Nested

end Event

/-! ## Depths of scopes -/

namespace Scope

theorem depth_define (scope : Scope) (name : Json) (value : Value) :
    (scope.define name value).depth = scope.depth := by
  cases scope with
  | outermost frame => rfl
  | inner frame outer => rfl

theorem depth_of_assign?
    {scope scope' : Scope} {name : Json} {value : Value}
    (h : scope.assign? name value = some scope') : scope'.depth = scope.depth := by
  induction scope generalizing scope' with
  | outermost frame =>
      obtain ⟨-, hscope⟩ := Option.ite_none_right_eq_some.mp h
      cases hscope
      rfl
  | inner frame outer ih =>
      rw [assign?] at h
      split at h
      · cases h
        rfl
      · obtain ⟨outer', houter, rfl⟩ := Option.map_eq_some_iff.mp h
        exact congrArg (· + 1) (ih houter)

theorem depth_pop {scope : Scope} {depth : Nat} (h : scope.depth = depth + 1) :
    scope.pop.depth = depth := by
  cases scope with
  | outermost frame => cases h
  | inner frame outer => exact Nat.succ.inj h

end Scope

/-! ## Parts of a run -/

theorem Settings.nested_trace_of_isFlat
    (settings : Settings) {event : Event} (h : event.isFlat = true) (depth : Nat) :
    Event.Nested depth (settings.trace event) := by
  unfold trace
  split
  · exact .flat h
  · exact .nil depth

theorem Settings.trace_eq_singleton
    {settings : Settings} {event : Event} (h : event.level ≤ settings.level) :
    settings.trace event = [event] :=
  if_pos h

/-- A part of a run ends as deep as it started, and it traces nested blocks. -/
structure Outcome.Nests (depth : Nat) (outcome : Outcome) : Prop where
  depth_eq : outcome.state.scope.depth = depth
  nested : Event.Nested depth outcome.traced

namespace Outcome

variable {depth : Nat} {state : State}

theorem nests_pass (h : state.scope.depth = depth) : (pass state).Nests depth :=
  ⟨h, .nil depth⟩

theorem nests_given
    {α : Type} {result : Except Fault α} {next : α → Outcome} (h : state.scope.depth = depth)
    (hnext : ∀ a, (next a).Nests depth) : (given state result next).Nests depth := by
  cases result with
  | ok a => exact hnext a
  | error fault => exact ⟨h, .nil depth⟩

theorem Nests.andThen
    {first : Outcome} {next : State → Outcome} (hfirst : first.Nests depth)
    (hnext : ∀ state : State, state.scope.depth = depth → (next state).Nests depth) :
    (first.andThen next).Nests depth := by
  have hsecond := hnext first.state hfirst.depth_eq
  unfold Outcome.andThen
  split
  · exact hfirst
  · exact ⟨hsecond.depth_eq, .append hfirst.nested hsecond.nested⟩

/-- The two events of a block enclose whatever was traced inside it, also before a fault. -/
theorem Nests.close
    {settings : Settings} (hlevel : 3 ≤ settings.level) {body : Outcome}
    (h : body.Nests (depth + 1)) : (body.close settings (depth + 1)).Nests depth := by
  constructor
  · exact Scope.depth_pop h.depth_eq
  · have hentered : settings.trace (.entered (depth + 1)) = [.entered (depth + 1)] :=
      Settings.trace_eq_singleton hlevel
    have hleft : settings.trace (.left (depth + 1)) = [.left (depth + 1)] :=
      Settings.trace_eq_singleton hlevel
    simp only [Outcome.close, hentered, hleft, List.singleton_append]
    exact .block h.nested

end Outcome

namespace State

variable (settings : Settings) {state : State} {depth : Nat}

theorem nests_bind
    {scope : Scope} (hscope : scope.depth = depth) (value : Value) {event : String → Event}
    (hevent : ∀ text, Event.Nested depth (settings.trace (event text))) :
    (state.bind settings scope value event).Nests depth :=
  Outcome.nests_given hscope fun text => ⟨hscope, hevent text⟩

variable (h : state.scope.depth = depth)

include h

theorem nests_declare (name : Json) (value : Value) :
    (state.declare settings name value).Nests depth := by
  unfold declare
  split
  · exact ⟨h, .nil depth⟩
  · refine nests_bind settings ((Scope.depth_define _ _ _).trans h) value fun text => ?_
    rw [h]
    unfold Settings.trace
    split
    · exact .defined name text depth
    · exact .nil depth

theorem nests_upsert (name : String) (value : Value) :
    (state.upsert settings name value).Nests depth := by
  unfold upsert
  split
  · rename_i scope hassign
    refine nests_bind settings ((Scope.depth_of_assign? hassign).trans h) value fun text => ?_
    exact settings.nested_trace_of_isFlat rfl depth
  · exact nests_declare settings h _ value

theorem nests_listen (prompt : Json) (target : Mark) :
    (state.listen settings prompt target).Nests depth := by
  unfold listen
  refine Outcome.Nests.andThen ⟨h, .nil depth⟩ fun state h => ?_
  refine Outcome.nests_given h fun sigil => ?_
  refine Outcome.nests_given h fun value => ?_
  exact Outcome.nests_given h fun name => nests_upsert settings h name value

end State

/-! ## Statements -/

namespace Node

mutual

/-- A statement traces nested blocks, and it leaves the scope as deep as it was. -/
theorem nests_exec
    {settings : Settings} (hlevel : 3 ≤ settings.level) (node : Node) {state : State} {depth : Nat}
    (h : state.scope.depth = depth) : (exec settings node state).Nests depth := by
  cases node with
  | spill value =>
      rw [exec]
      refine Outcome.nests_given h fun v => ?_
      exact Outcome.nests_given h fun text => ⟨h, .nil depth⟩
  | expression value =>
      rw [exec]
      refine Outcome.nests_given h fun v => ?_
      split
      · exact Outcome.nests_given h fun text => ⟨h, .nil depth⟩
      · exact Outcome.nests_pass h
  | declaration sigil name value =>
      rw [exec]
      refine Outcome.nests_given h fun v => ?_
      exact Outcome.nests_given h fun v => State.nests_declare settings h _ v
  | assignment target value =>
      rw [exec]
      refine Outcome.nests_given h fun v => ?_
      refine Outcome.nests_given h fun v => ?_
      exact Outcome.nests_given h fun name => State.nests_upsert settings h name v
  | listen prompt target =>
      rw [exec]
      exact State.nests_listen settings h prompt target
  | block body =>
      rw [exec, h]
      refine Outcome.Nests.close hlevel (nests_execAll hlevel body ?_)
      exact congrArg (· + 1) h
  | conditional condition consequent alternative =>
      rw [exec]
      refine Outcome.nests_given h fun v => ?_
      refine Outcome.nests_given h fun text => ?_
      refine Outcome.Nests.andThen ⟨h, settings.nested_trace_of_isFlat rfl depth⟩ fun state h => ?_
      split
      · exact nests_exec hlevel consequent h
      · split
        · exact Outcome.nests_pass h
        · exact nests_exec hlevel alternative h
  | _ =>
      unfold exec
      exact ⟨h, .nil depth⟩
termination_by structural node

/-- Statements trace nested blocks, and they leave the scope as deep as it was. -/
theorem nests_execAll
    {settings : Settings} (hlevel : 3 ≤ settings.level) (body : List Node) {state : State}
    {depth : Nat} (h : state.scope.depth = depth) : (execAll settings body state).Nests depth := by
  cases body with
  | nil =>
      rw [execAll]
      exact Outcome.nests_pass h
  | cons node later =>
      rw [execAll]
      exact (nests_exec hlevel node h).andThen fun state h => nests_execAll hlevel later h
termination_by structural body

end

end Node

/-! ## Traces of whole runs -/

namespace Event

/-- The blocks of a trace are nested, and every depth in it is the number of blocks that are open in
its place. -/
structure WellBracketed (trace : List Event) : Prop where
  nested : Nested 0 trace
  /-- A block is entered one deeper than the blocks that are open, and left again at that depth. -/
  entered : ∀ before (depth : Nat) after, trace = before ++ .entered depth :: after →
    depth = openBlocks before + 1 ∧
      ∃ inside rest, after = inside ++ .left depth :: rest ∧ Nested depth inside
  /-- The block that is left is the innermost one that is open. -/
  left : ∀ before (depth : Nat) after, trace = before ++ .left depth :: after →
    depth = openBlocks before ∧
      ∃ earlier inside, before = earlier ++ .entered depth :: inside ∧ Nested depth inside
  /-- A name is defined as deep as there are blocks open. -/
  defined : ∀ before name value (depth : Nat) after,
    trace = before ++ .defined name value depth :: after → depth = openBlocks before

theorem Nested.wellBracketed {trace : List Event} (h : Nested 0 trace) : WellBracketed trace where
  nested := h
  entered := by
    intro before depth after htrace
    simpa [Fits] using h.fits htrace
  left := by
    intro before depth after htrace
    simpa [Fits] using h.fits htrace
  defined := by
    intro before name value depth after htrace
    simpa [Fits] using h.fits htrace

theorem nested_flatMap
    {α : Type} {depth : Nat} (items : List α) {f : α → List Event} (h : ∀ a, Nested depth (f a)) :
    Nested depth (items.flatMap f) := by
  induction items with
  | nil => exact .nil depth
  | cons a later ih =>
      rw [List.flatMap_cons]
      exact .append (h a) ih

end Event

namespace Session

open Event

theorem nested_scanTrace (settings : Settings) (scan : Scan) (depth : Nat) :
    Nested depth (scanTrace settings scan) := by
  refine .append (.append ?_ ?_) ?_
  · exact settings.nested_trace_of_isFlat rfl depth
  · exact nested_flatMap _ fun t => settings.nested_trace_of_isFlat rfl depth
  · exact nested_flatMap _ fun d => settings.nested_trace_of_isFlat rfl depth

/-- The trace of a run that fails is kept as it was when the fault came. -/
theorem traced_runProgram (settings : Settings) (session : Session) (program : List Node) :
    (session.runProgram settings program).traced =
      settings.trace (.started program.length) ++
        (Node.execAll settings program session.state).traced := by
  simp only [runProgram]
  split
  · rfl
  · rfl

section GlobalFrame

variable {settings : Settings} (hlevel : 3 ≤ settings.level) {session : Session}
  (hglobal : session.state.scope.depth = 0)

include hlevel hglobal

theorem nested_runProgram (program : List Node) :
    Nested 0 (session.runProgram settings program).traced := by
  rw [traced_runProgram]
  refine .append ?_ (Node.nests_execAll hlevel program hglobal).nested
  exact settings.nested_trace_of_isFlat rfl 0

theorem nested_runSource (source : String) :
    Nested 0 (session.runSource settings source).traced := by
  simp only [runSource]
  refine .append (nested_scanTrace settings _ 0) ?_
  split
  · exact .nil 0
  · rename_i program _
    refine .append ?_ (nested_runProgram hlevel hglobal program)
    exact settings.nested_trace_of_isFlat rfl 0

end GlobalFrame

/-- The trace of a run that starts in the global frame is well bracketed, at level three or more.
This holds for every tree and every source text, whether the run ends or fails. -/
theorem trace_well_bracketed
    {settings : Settings} (hlevel : 3 ≤ settings.level) {session : Session}
    (hglobal : session.state.scope.depth = 0) :
    (∀ program, WellBracketed (session.runProgram settings program).traced) ∧
      ∀ source, WellBracketed (session.runSource settings source).traced := by
  constructor
  · intro program
    exact (nested_runProgram hlevel hglobal program).wellBracketed
  · intro source
    exact (nested_runSource hlevel hglobal source).wellBracketed

end Session

namespace Sample

/-- A variable without a sigil. -/
def unsigned (name : String) : Mark := ⟨.identifier, .text name, .null, .integer 1⟩

/-- A block in a block, where a variable is read that nothing is bound to. -/
def stranded : List Node :=
  [.block
    [.declaration (.text "@") (unsigned "a") (.text ⟨.text, .text "\"y\"", .text "y", .integer 1⟩),
      .block [.assignment (unsigned "b") (.boolean ⟨.fr, .text "fr", .null, .integer 1⟩),
        .spill (.identifier (unsigned "c"))]]]

end Sample

/-- The error passes through both blocks, and both are left. -/
theorem Session.trace_well_bracketed_stranded :
    let step := (Session.start "").runProgram ⟨false, 3⟩ Sample.stranded
    step.ok = false ∧
      step.traced = [.started 1, .entered 1, .defined (.text "a") "y" 1, .entered 2,
        .defined (.text "b") "true" 2, .left 2, .left 1] ∧
      Event.WellBracketed step.traced := by
  intro step
  exact ⟨rfl, rfl, (trace_well_bracketed (by decide) rfl).1 Sample.stranded⟩

end Slang
