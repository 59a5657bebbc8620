import Mathlib.Data.List.Forall2
import Slang.Proofs.Scope.Update
import Slang.Run.Exec

/-!
# Isolation of scopes

A statement binds new names in the innermost frame only, and no name is ever unbound.  In the frames
around the innermost one it changes nothing but the values of names that it assigns or listens for.
A block runs in a frame of its own, so that it changes the whole scope around it in this way only,
whether it ends or a fault stops it at any depth.
-/

namespace Slang

/-! ## Names that are given a value where they are bound -/

/-- The name of the variable that a mark stands for, if it names one. -/
def Mark.variables (mark : Mark) : List Json :=
  match mark.name with
  | .ok name => [.text name]
  | .error _ => []

namespace Node

mutual

/-- The names that a statement assigns or listens for, at any depth. -/
def targets : Node → List Json
  | .assignment target _ => target.variables
  | .listen _ target => target.variables
  | .block body => targetsAll body
  | .conditional _ consequent alternative => targets consequent ++ targets alternative
  | _ => []

/-- The names that statements assign or listen for, at any depth. -/
def targetsAll : List Node → List Json
  | [] => []
  | node :: later => targets node ++ targetsAll later

end

end Node

/-! ## What may happen to a scope -/

/-- The same names are bound, and those apart from the targets have the same values. -/
structure Frame.Keeps (targets : List Json) (old new : Frame) : Prop where
  names : new.names = old.names
  get? : ∀ name, name ∉ targets → new.get? name = old.get? name

namespace Frame.Keeps

variable {targets targets' : List Json}

theorem refl (targets : List Json) (frame : Frame) : frame.Keeps targets frame :=
  ⟨rfl, fun _ _ => rfl⟩

theorem trans {a b c : Frame} (h : a.Keeps targets b) (h' : b.Keeps targets c) :
    a.Keeps targets c :=
  ⟨h'.names.trans h.names, fun name hname => (h'.get? name hname).trans (h.get? name hname)⟩

theorem mono {a b : Frame} (h : a.Keeps targets b) (hsubset : targets ⊆ targets') :
    a.Keeps targets' b :=
  ⟨h.names, fun name hname => h.get? name fun hmem => hname (hsubset hmem)⟩

theorem set {frame : Frame} {name : Json} (hbound : (frame.get? name).isSome = true)
    (value : Value) : frame.Keeps [name] (frame.set name value) := by
  refine ⟨Frame.names_set_of_isSome hbound value, fun other hother => ?_⟩
  rw [Frame.get?_set, if_neg fun h => hother (by simp [h])]

end Frame.Keeps

theorem Frame.forall₂_keeps_refl (targets : List Json) (frames : List Frame) :
    List.Forall₂ (Frame.Keeps targets) frames frames :=
  List.forall₂_same.mpr fun frame _ => .refl targets frame

theorem Frame.forall₂_keeps_trans {targets : List Json} {a b c : List Frame}
    (h : List.Forall₂ (Frame.Keeps targets) a b) (h' : List.Forall₂ (Frame.Keeps targets) b c) :
    List.Forall₂ (Frame.Keeps targets) a c := by
  induction h generalizing c with
  | nil => exact h'
  | cons hframe _ ih =>
      cases h' with
      | cons hframe' houter' => exact .cons (hframe.trans hframe') (ih houter')

namespace Scope

/-- Every frame binds the same names, and those apart from the targets have the same values. -/
def Keeps (targets : List Json) (old new : Scope) : Prop :=
  List.Forall₂ (Frame.Keeps targets) old.frames new.frames

/-- No name is unbound.  Around the innermost frame, every frame binds the same names, and those
apart from the targets have the same values. -/
structure Grows (targets : List Json) (old new : Scope) : Prop where
  innermost : old.innermost.names <+: new.innermost.names
  outer : List.Forall₂ (Frame.Keeps targets) old.frames.tail new.frames.tail

variable {targets targets' : List Json} {a b c : Scope}

theorem Grows.refl (targets : List Json) (scope : Scope) : scope.Grows targets scope :=
  ⟨List.prefix_rfl, Frame.forall₂_keeps_refl targets _⟩

theorem Grows.trans (h : a.Grows targets b) (h' : b.Grows targets c) : a.Grows targets c :=
  ⟨h.innermost.trans h'.innermost, Frame.forall₂_keeps_trans h.outer h'.outer⟩

theorem Grows.mono (h : a.Grows targets b) (hsubset : targets ⊆ targets') : a.Grows targets' b :=
  ⟨h.innermost, h.outer.imp fun _ _ hframe => hframe.mono hsubset⟩

theorem Keeps.grows (h : a.Keeps targets b) : a.Grows targets b := by
  unfold Keeps at h
  rw [a.frames_eq_cons, b.frames_eq_cons] at h
  obtain ⟨hinnermost, houter⟩ := List.forall₂_cons.mp h
  exact ⟨hinnermost.names ▸ List.prefix_rfl, houter⟩

/-- When a new frame is closed again, the scope around it has kept its names. -/
theorem Grows.keeps_pop (h : a.push.Grows targets b) : a.Keeps targets b.pop := by
  have houter : List.Forall₂ (Frame.Keeps targets) a.frames b.frames.tail := h.outer
  have hframes : b.pop.frames = b.frames.tail := by
    refine frames_pop fun hempty => a.frames_ne_nil ?_
    rw [hempty] at houter
    exact List.forall₂_nil_right_iff.mp houter
  unfold Keeps
  rwa [hframes]

theorem grows_define (targets : List Json) (scope : Scope) (name : Json) (value : Value) :
    scope.Grows targets (scope.define name value) := by
  constructor
  · rw [innermost_define]
    exact scope.innermost.names_prefix_set name value
  · rw [frames_define]
    exact Frame.forall₂_keeps_refl targets _

theorem keeps_of_assign? {scope scope' : Scope} {name : Json} {value : Value}
    (h : scope.assign? name value = some scope') : scope.Keeps [name] scope' := by
  induction scope generalizing scope' with
  | outermost frame =>
      obtain ⟨hbound, hscope⟩ := Option.ite_none_right_eq_some.mp h
      cases hscope
      exact .cons (.set hbound value) .nil
  | inner frame outer ih =>
      unfold assign? at h
      by_cases hbound : (frame.get? name).isSome = true
      · rw [if_pos hbound] at h
        cases h
        exact .cons (.set hbound value) (Frame.forall₂_keeps_refl _ _)
      · rw [if_neg hbound] at h
        obtain ⟨outer', houter, rfl⟩ := Option.map_eq_some_iff.mp h
        exact .cons (.refl _ frame) (ih houter)

end Scope

/-! ## Parts of a run -/

/-- A part of a run leaves a scope to which nothing has happened but what the targets allow. -/
def Outcome.Grows (targets : List Json) (scope : Scope) (outcome : Outcome) : Prop :=
  scope.Grows targets outcome.state.scope

namespace Outcome

variable {targets : List Json} {scope : Scope}

theorem grows_given
    {α : Type} {state : State} (h : scope.Grows targets state.scope) (result : Except Fault α)
    {next : α → Outcome} (hnext : ∀ a, result = .ok a → (next a).Grows targets scope) :
    (given state result next).Grows targets scope := by
  cases result with
  | ok a => exact hnext a rfl
  | error fault => exact h

theorem Grows.andThen
    {first : Outcome} {next : State → Outcome} (hfirst : first.Grows targets scope)
    (hnext : ∀ state : State, (next state).Grows targets state.scope) :
    (first.andThen next).Grows targets scope := by
  unfold Outcome.andThen
  split
  · exact hfirst
  · exact hfirst.trans (hnext first.state)

theorem Grows.mono
    {targets' : List Json} {outcome : Outcome} (h : outcome.Grows targets scope)
    (hsubset : targets ⊆ targets') : outcome.Grows targets' scope :=
  Scope.Grows.mono h hsubset

end Outcome

namespace State

theorem grows_bind
    (settings : Settings) (state : State) {targets : List Json} {scope : Scope}
    (h : state.scope.Grows targets scope) (value : Value) (event : String → Event) :
    (state.bind settings scope value event).Grows targets state.scope :=
  Outcome.grows_given h value.shown fun _ _ => h

theorem grows_declare
    (settings : Settings) (targets : List Json) (name : Json) (value : Value) (state : State) :
    (state.declare settings name value).Grows targets state.scope := by
  unfold declare
  split
  · exact .refl targets state.scope
  · exact grows_bind settings state (state.scope.grows_define targets _ value) value _

theorem grows_upsert (settings : Settings) (name : String) (value : Value) (state : State) :
    (state.upsert settings name value).Grows [.text name] state.scope := by
  unfold upsert
  split
  · rename_i hassign
    exact grows_bind settings state (Scope.keeps_of_assign? hassign).grows value _
  · exact grows_declare settings _ _ value state

/-- The name of a variable is given a value. -/
theorem grows_upsert_name
    (settings : Settings) (target : Mark) (value : Value) (state : State) :
    (Outcome.given state target.name fun name => state.upsert settings name value).Grows
      target.variables state.scope := by
  refine Outcome.grows_given (.refl _ state.scope) target.name fun name hname => ?_
  have hvariables : target.variables = [.text name] := by rw [Mark.variables, hname]
  rw [hvariables]
  exact grows_upsert settings name value state

theorem grows_listen (settings : Settings) (prompt : Json) (target : Mark) (state : State) :
    (state.listen settings prompt target).Grows target.variables state.scope := by
  have hasked : state.scope.Grows target.variables state.scope := .refl _ _
  unfold listen
  refine Outcome.Grows.andThen hasked fun state => ?_
  refine Outcome.grows_given (.refl _ state.scope) target.front fun sigil _ => ?_
  refine Outcome.grows_given (.refl _ state.scope) (fit _ sigil target) fun value _ => ?_
  exact grows_upsert_name settings target value state

end State

/-! ## Statements -/

namespace Node

/-- A block keeps the scope around it if its statements do what their targets allow. -/
theorem keeps_exec_block
    (settings : Settings) (body : List Node) (state : State) {targets : List Json}
    (h : (execAll settings body { state with scope := state.scope.push }).Grows targets
      state.scope.push) :
    state.scope.Keeps targets (exec settings (.block body) state).state.scope := by
  unfold exec
  exact Scope.Grows.keeps_pop h

mutual

/-- A statement does to the scope nothing but what its targets allow. -/
theorem grows_exec (settings : Settings) (node : Node) (state : State) :
    (exec settings node state).Grows node.targets state.scope := by
  have hrefl : ∀ targets, state.scope.Grows targets state.scope := fun _ => .refl _ _
  cases node with
  | spill value =>
      unfold exec
      refine Outcome.grows_given (hrefl _) _ fun v _ => ?_
      exact Outcome.grows_given (hrefl _) _ fun text _ => hrefl _
  | expression value =>
      unfold exec
      refine Outcome.grows_given (hrefl _) _ fun v _ => ?_
      split
      · exact Outcome.grows_given (hrefl _) _ fun text _ => hrefl _
      · exact hrefl _
  | declaration sigil name value =>
      unfold exec
      refine Outcome.grows_given (hrefl _) _ fun v _ => ?_
      refine Outcome.grows_given (hrefl _) _ fun v _ => ?_
      exact State.grows_declare settings _ _ v state
  | assignment target value =>
      unfold exec targets
      refine Outcome.grows_given (hrefl _) _ fun v _ => ?_
      refine Outcome.grows_given (hrefl _) _ fun v _ => ?_
      exact State.grows_upsert_name settings target v state
  | listen prompt target =>
      unfold exec targets
      exact State.grows_listen settings prompt target state
  | block body =>
      have hbody := grows_execAll settings body { state with scope := state.scope.push }
      unfold targets
      exact (keeps_exec_block settings body state hbody).grows
  | conditional condition consequent alternative =>
      unfold exec targets
      refine Outcome.grows_given (hrefl _) _ fun v _ => ?_
      refine Outcome.grows_given (hrefl _) _ fun text _ => ?_
      refine Outcome.Grows.andThen (hrefl _) fun state => ?_
      split
      · exact (grows_exec settings consequent state).mono (List.subset_append_left _ _)
      · split
        · exact Scope.Grows.refl _ state.scope
        · exact (grows_exec settings alternative state).mono (List.subset_append_right _ _)
  | _ =>
      unfold exec
      exact hrefl _
termination_by structural node

/-- Statements do to the scope nothing but what their targets allow. -/
theorem grows_execAll (settings : Settings) (body : List Node) (state : State) :
    (execAll settings body state).Grows (targetsAll body) state.scope := by
  cases body with
  | nil =>
      unfold execAll
      exact Scope.Grows.refl _ state.scope
  | cons node later =>
      unfold execAll targetsAll
      refine Outcome.Grows.andThen ?_ fun state => ?_
      · exact (grows_exec settings node state).mono (List.subset_append_left _ _)
      · exact (grows_execAll settings later state).mono (List.subset_append_right _ _)
termination_by structural body

end

end Node

/-- Scopes are isolated on every way out.  After a block, whether it has ended or a fault has stopped
it, every frame of the scope around it binds the same names as before, and a name that the block
nowhere assigns or listens for has its old value in every frame.  A single statement changes the
names of no frame but the innermost one, and unbinds no name there. -/
theorem exec_isolates_scope (settings : Settings) (state : State) :
    (∀ body : List Node,
      List.Forall₂
        (fun old new : Frame => new.names = old.names ∧
          ∀ name, name ∉ Node.targetsAll body → new.get? name = old.get? name)
        state.scope.frames (Node.exec settings (.block body) state).state.scope.frames) ∧
    ∀ node : Node,
      let after := (Node.exec settings node state).state.scope
      state.scope.innermost.names ⊆ after.innermost.names ∧
        List.Forall₂ (fun old new : Frame => new.names = old.names)
          state.scope.frames.tail after.frames.tail := by
  constructor
  · intro body
    have hbody := Node.grows_execAll settings body { state with scope := state.scope.push }
    have hkeeps := Node.keeps_exec_block settings body state hbody
    exact hkeeps.imp fun old new hframe => ⟨hframe.names, hframe.get?⟩
  · intro node after
    have hgrows : state.scope.Grows node.targets after := Node.grows_exec settings node state
    exact ⟨hgrows.innermost.subset, hgrows.outer.imp fun old new hframe => hframe.names⟩

end Slang
