import Slang.Run.Exec

/-!
# Parts of a run

A run of statements goes on with what follows them, unless a fault has stopped it.
-/

namespace Slang

namespace Outcome

theorem andThen_of_fault_eq_none
    {first : Outcome} (h : first.fault = none) (next : State → Outcome) :
    first.andThen next =
      { next first.state with
        printed := first.printed ++ (next first.state).printed
        traced := first.traced ++ (next first.state).traced } := by
  rw [andThen, h]

theorem andThen_of_fault_eq_some
    {first : Outcome} {fault : Fault} (h : first.fault = some fault) (next : State → Outcome) :
    first.andThen next = first := by
  rw [andThen, h]

theorem andThen_assoc (first : Outcome) (second third : State → Outcome) :
    (first.andThen second).andThen third =
      first.andThen fun state => (second state).andThen third := by
  cases hfirst : first.fault with
  | some fault => simp only [andThen_of_fault_eq_some hfirst]
  | none =>
      rw [andThen_of_fault_eq_none hfirst, andThen_of_fault_eq_none hfirst]
      cases hsecond : (second first.state).fault with
      | some fault =>
          rw [andThen_of_fault_eq_some hsecond, andThen_of_fault_eq_some (by exact hsecond)]
      | none =>
          rw [andThen_of_fault_eq_none hsecond, andThen_of_fault_eq_none (by exact hsecond)]
          simp only [List.append_assoc]

@[simp] theorem andThen_pass (first : Outcome) : first.andThen pass = first := by
  cases hfirst : first.fault with
  | some fault => exact andThen_of_fault_eq_some hfirst pass
  | none =>
      rw [andThen_of_fault_eq_none hfirst]
      simp [pass, ← hfirst]

end Outcome

theorem Value.exists_unprintable {value : Value} {fault : Fault} (h : value.shown = .error fault) :
    ∃ reason, fault = .unprintable reason := by
  unfold Value.shown at h
  cases hrender : value.render with
  | ok text =>
      rw [hrender] at h
      cases h
  | error reason =>
      rw [hrender] at h
      cases h
      exact ⟨reason, rfl⟩

theorem Node.execAll_append (settings : Settings) (first later : List Node) (state : State) :
    execAll settings (first ++ later) state =
      (execAll settings first state).andThen (execAll settings later) := by
  induction first generalizing state with
  | nil => simp [execAll, Outcome.pass, Outcome.andThen]
  | cons node others ih =>
      rw [List.cons_append, execAll, execAll, Outcome.andThen_assoc]
      congr 1
      funext state
      exact ih state

theorem Node.execAll_singleton (settings : Settings) (node : Node) (state : State) :
    execAll settings [node] state = exec settings node state := by
  rw [execAll]
  exact Outcome.andThen_pass (exec settings node state)

end Slang
