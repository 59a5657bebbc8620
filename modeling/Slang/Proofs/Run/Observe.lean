import Slang.Proofs.Run.Sequence

/-!
# Runs under different settings

The settings of a run decide what is shown of it: which events go into the trace, and whether the
values of expressions that stand as statements are echoed.  Nothing else depends on them.  A run
under quieter settings is the same run with less shown, unless the louder one stops because it
cannot print a value.
-/

namespace Slang

namespace Settings

/-- The first settings show nothing that the second ones do not show. -/
structure Quieter (quiet loud : Settings) : Prop where
  interactive : quiet.interactive = true → loud.interactive = true
  level : quiet.level ≤ loud.level

/-- The settings let a printed thing through. -/
def shows (settings : Settings) : Printed → Bool
  | .echo _ => settings.interactive
  | _ => true

/-- The settings let an event into the trace. -/
def records (settings : Settings) (event : Event) : Bool :=
  event.level ≤ settings.level

theorem Quieter.trace_eq {quiet loud : Settings} (h : quiet.Quieter loud) (event : Event) :
    quiet.trace event = (loud.trace event).filter quiet.records := by
  unfold trace
  by_cases hquiet : event.level ≤ quiet.level
  · have hloud : event.level ≤ loud.level := Nat.le_trans hquiet h.level
    simp [records, hquiet, hloud]
  · by_cases hloud : event.level ≤ loud.level <;> simp [records, hquiet, hloud]

end Settings

/-! ## Parts of a run -/

namespace Outcome

/-- What is left of an outcome under other settings. -/
def seenBy (settings : Settings) (outcome : Outcome) : Outcome :=
  { outcome with
    printed := outcome.printed.filter settings.shows
    traced := outcome.traced.filter settings.records }

/-- No value was met that cannot be printed. -/
def IsPrintable (outcome : Outcome) : Prop :=
  ∀ reason, outcome.fault ≠ some (.unprintable reason)

variable {settings : Settings} {state : State}

theorem given_seenBy
    {α : Type} {result : Except Fault α} {next next' : α → Outcome}
    (h : (given state result next).IsPrintable)
    (hnext : ∀ a, (next a).IsPrintable → next' a = (next a).seenBy settings) :
    given state result next' = (given state result next).seenBy settings := by
  cases result with
  | ok a => exact hnext a h
  | error fault => rfl

theorem andThen_seenBy
    {first first' : Outcome} {next next' : State → Outcome} (h : (first.andThen next).IsPrintable)
    (hfirst : first.IsPrintable → first' = first.seenBy settings)
    (hnext : ∀ state, (next state).IsPrintable → next' state = (next state).seenBy settings) :
    first'.andThen next' = (first.andThen next).seenBy settings := by
  unfold andThen at h ⊢
  cases hfault : first.fault with
  | some fault =>
      rw [hfault] at h
      simp [hfirst h, seenBy, hfault]
  | none =>
      rw [hfault] at h
      have hprintable : first.IsPrintable := by simp [IsPrintable, hfault]
      simp [hfirst hprintable, seenBy, hfault, hnext first.state h]

end Outcome

variable {quiet loud : Settings}

namespace State

theorem bind_seenBy
    (h : quiet.Quieter loud) (state : State) (scope : Scope) (value : Value)
    (event : String → Event) :
    state.bind quiet scope value event = (state.bind loud scope value event).seenBy quiet := by
  unfold bind
  cases value.shown with
  | error fault => rfl
  | ok text => simp [Outcome.given, Outcome.seenBy, h.trace_eq]

theorem declare_seenBy (h : quiet.Quieter loud) (state : State) (name : Json) (value : Value) :
    state.declare quiet name value = (state.declare loud name value).seenBy quiet := by
  unfold declare
  split
  · rfl
  · exact bind_seenBy h state _ value _

theorem upsert_seenBy (h : quiet.Quieter loud) (state : State) (name : String) (value : Value) :
    state.upsert quiet name value = (state.upsert loud name value).seenBy quiet := by
  unfold upsert
  split
  · exact bind_seenBy h state _ value _
  · exact declare_seenBy h state _ value

theorem listen_seenBy
    (h : quiet.Quieter loud) (state : State) (prompt : Json) (target : Mark)
    (hprintable : (state.listen loud prompt target).IsPrintable) :
    state.listen quiet prompt target = (state.listen loud prompt target).seenBy quiet := by
  unfold listen at hprintable ⊢
  refine Outcome.andThen_seenBy hprintable (fun _ => rfl) fun state hprintable => ?_
  refine Outcome.given_seenBy hprintable fun sigil hprintable => ?_
  refine Outcome.given_seenBy hprintable fun value hprintable => ?_
  exact Outcome.given_seenBy hprintable fun name _ => upsert_seenBy h state name value

end State

theorem Outcome.close_seenBy (h : quiet.Quieter loud) (body : Outcome) (depth : Nat) :
    (body.seenBy quiet).close quiet depth = (body.close loud depth).seenBy quiet := by
  simp [close, seenBy, h.trace_eq]

/-! ## Statements -/

namespace Node

/-- An echo is the only thing printed that quieter settings may leave out. -/
theorem exec_expression_seenBy
    (h : quiet.Quieter loud) (value : Node) (state : State)
    (hprintable : (exec loud (.expression value) state).IsPrintable) :
    exec quiet (.expression value) state =
      (exec loud (.expression value) state).seenBy quiet := by
  unfold exec at hprintable ⊢
  refine Outcome.given_seenBy hprintable fun v hprintable => ?_
  by_cases hloud : loud.interactive = true
  · rw [if_pos hloud] at hprintable ⊢
    cases hshown : v.shown with
    | ok text =>
        by_cases hquiet : quiet.interactive = true <;>
          simp [Outcome.given, Outcome.pass, Outcome.seenBy, Settings.shows, hquiet]
    | error fault =>
        -- The louder run has not stopped here.
        obtain ⟨reason, rfl⟩ := Value.exists_unprintable hshown
        rw [hshown] at hprintable
        exact (hprintable reason rfl).elim
  · have hquiet : ¬quiet.interactive = true := fun hquiet => hloud (h.interactive hquiet)
    rw [if_neg hloud, if_neg hquiet]
    rfl

mutual

/-- A statement does the same under quieter settings. -/
theorem exec_seenBy
    (h : quiet.Quieter loud) (node : Node) (state : State)
    (hprintable : (exec loud node state).IsPrintable) :
    exec quiet node state = (exec loud node state).seenBy quiet := by
  cases node with
  | spill value =>
      unfold exec at hprintable ⊢
      refine Outcome.given_seenBy hprintable fun v hprintable => ?_
      exact Outcome.given_seenBy hprintable fun text _ => rfl
  | expression value => exact exec_expression_seenBy h value state hprintable
  | declaration sigil name value =>
      unfold exec at hprintable ⊢
      refine Outcome.given_seenBy hprintable fun v hprintable => ?_
      exact Outcome.given_seenBy hprintable fun v _ => State.declare_seenBy h state name.lexeme v
  | assignment target value =>
      unfold exec at hprintable ⊢
      refine Outcome.given_seenBy hprintable fun v hprintable => ?_
      refine Outcome.given_seenBy hprintable fun v hprintable => ?_
      exact Outcome.given_seenBy hprintable fun name _ => State.upsert_seenBy h state name v
  | listen prompt target =>
      unfold exec at hprintable ⊢
      exact State.listen_seenBy h state prompt target hprintable
  | block body =>
      unfold exec at hprintable ⊢
      rw [execAll_seenBy h body _ hprintable]
      exact Outcome.close_seenBy h _ _
  | conditional condition consequent alternative =>
      unfold exec at hprintable ⊢
      refine Outcome.given_seenBy hprintable fun v hprintable => ?_
      refine Outcome.given_seenBy hprintable fun text hprintable => ?_
      refine Outcome.andThen_seenBy hprintable (fun _ => ?_) fun state hprintable => ?_
      · simp [Outcome.seenBy, h.trace_eq]
      · split
        · rename_i htrue
          rw [if_pos htrue] at hprintable
          exact exec_seenBy h consequent state hprintable
        · rename_i hfalse
          rw [if_neg hfalse] at hprintable
          split
          · rfl
          · rename_i hpresent
            rw [if_neg hpresent] at hprintable
            exact exec_seenBy h alternative state hprintable
  | _ =>
      unfold exec
      rfl
termination_by structural node

/-- Statements do the same under quieter settings. -/
theorem execAll_seenBy
    (h : quiet.Quieter loud) (body : List Node) (state : State)
    (hprintable : (execAll loud body state).IsPrintable) :
    execAll quiet body state = (execAll loud body state).seenBy quiet := by
  cases body with
  | nil =>
      unfold execAll
      rfl
  | cons node later =>
      unfold execAll at hprintable ⊢
      refine Outcome.andThen_seenBy hprintable ?_ fun state hprintable => ?_
      · exact exec_seenBy h node state
      · exact execAll_seenBy h later state hprintable
termination_by structural body

end

end Node

end Slang
