import Mathlib.Data.List.Nodup
import Slang.Proofs.Scope.Update
import Slang.Scope

/-!
# Laws of the chain of frames

Looking a name up and rebinding it walk the chain apart from each other.  Both stop at the innermost
frame that binds the name, so a name can be assigned exactly if it has a value, and assigning
changes that frame in the value of that name and nothing else.  Declaring changes the innermost
frame only, and what is declared in a new frame is gone when the frame is closed.
-/

namespace Slang

/-! ## Frames that bind each name once -/

namespace Frame

/-- The frames bind the same names to the same values, but for the new value of one name. -/
structure Rebinds (name : Json) (value : Value) (old new : Frame) : Prop where
  names : new.names = old.names
  get?_self : new.get? name = some value
  get?_other : ∀ other, other ≠ name → new.get? other = old.get? other

theorem rebinds_set {frame : Frame} {name : Json} (h : name ∈ frame.names) (value : Value) :
    Rebinds name value frame (frame.set name value) := by
  refine ⟨names_set_of_isSome ((frame.isSome_get?_iff name).mpr h) value, ?_, ?_⟩
  · rw [get?_set, if_pos rfl]
  · intro other hother
    rw [get?_set, if_neg (Ne.symm hother)]

theorem names_set_of_not_mem {frame : Frame} {name : Json} (h : name ∉ frame.names)
    (value : Value) : (frame.set name value).names = frame.names ++ [name] := by
  induction frame with
  | nil => rfl
  | cons binding later ih =>
      rw [names, List.map_cons, List.mem_cons, not_or] at h
      rw [set_cons, if_neg (Ne.symm h.1)]
      exact congrArg (List.cons binding.1) (ih h.2)

theorem nodup_names_set {frame : Frame} (h : frame.names.Nodup) (name : Json) (value : Value) :
    (frame.set name value).names.Nodup := by
  by_cases hmem : name ∈ frame.names
  · rw [(rebinds_set hmem value).names]
    exact h
  · rw [names_set_of_not_mem hmem]
    exact h.append (List.nodup_singleton name) (List.disjoint_singleton.mpr hmem)

end Frame

/-! ## Where a name is rebound -/

namespace Scope

/-- The innermost frame that binds the name gives it the value; no other frame is changed, and
neither is any other name. -/
def RebindsInnermost (name : Json) (value : Value) (old new : Scope) : Prop :=
  ∃ inside frame changed outside,
    old.frames = inside ++ frame :: outside ∧ new.frames = inside ++ changed :: outside ∧
      (∀ inner ∈ inside, name ∉ inner.names) ∧ name ∈ frame.names ∧
        frame.Rebinds name value changed

theorem RebindsInnermost.inner {name : Json} {value : Value} {old new : Scope} {frame : Frame}
    (h : old.RebindsInnermost name value new) (hframe : name ∉ frame.names) :
    (inner frame old).RebindsInnermost name value (inner frame new) := by
  obtain ⟨inside, bound, changed, outside, hold, hnew, hinside, hbound, hrebinds⟩ := h
  refine ⟨frame :: inside, bound, changed, outside, ?_, ?_, ?_, hbound, hrebinds⟩
  · rw [frames, hold, List.cons_append]
  · rw [frames, hnew, List.cons_append]
  · exact List.forall_mem_cons.mpr ⟨hframe, hinside⟩

theorem rebindsInnermost_of_assign? {scope scope' : Scope} {name : Json} {value : Value}
    (h : scope.assign? name value = some scope') : scope.RebindsInnermost name value scope' := by
  induction scope generalizing scope' with
  | outermost frame =>
      obtain ⟨hbound, hscope⟩ := Option.ite_none_right_eq_some.mp h
      cases hscope
      rw [Frame.isSome_get?_iff] at hbound
      exact ⟨[], frame, _, [], rfl, rfl, nofun, hbound, Frame.rebinds_set hbound value⟩
  | inner frame outer ih =>
      unfold assign? at h
      by_cases hbound : (frame.get? name).isSome = true
      · rw [if_pos hbound] at h
        cases h
        rw [Frame.isSome_get?_iff] at hbound
        exact ⟨[], frame, _, outer.frames, rfl, rfl, nofun, hbound,
          Frame.rebinds_set hbound value⟩
      · rw [if_neg hbound] at h
        obtain ⟨outer', houter, rfl⟩ := Option.map_eq_some_iff.mp h
        rw [Frame.isSome_get?_iff] at hbound
        exact (ih houter).inner hbound

/-! ## What the steps answer -/

theorem perform_get_of_some {scope : Scope} {name : String} {value : Value}
    (h : scope.get? (.text name) = some value) :
    scope.perform (.get name) = (.found value, scope) := by
  simp [perform, h]

theorem perform_get_of_none {scope : Scope} {name : String} (h : scope.get? (.text name) = none) :
    scope.perform (.get name) = (.undefined name, scope) := by
  simp [perform, h]

theorem perform_get_eq_found_iff (scope : Scope) (name : String) (value : Value) :
    (scope.perform (.get name)).1 = .found value ↔ scope.get? (.text name) = some value := by
  cases h : scope.get? (.text name) with
  | none => simp [perform_get_of_none h]
  | some found => simp [perform_get_of_some h]

/-- A look-up answers by the value of the name alone. -/
theorem perform_get_congr {a b : Scope} {name : String}
    (h : a.get? (.text name) = b.get? (.text name)) :
    (a.perform (.get name)).1 = (b.perform (.get name)).1 := by
  cases hb : b.get? (.text name) with
  | none => rw [perform_get_of_none (h.trans hb), perform_get_of_none hb]
  | some value => rw [perform_get_of_some (h.trans hb), perform_get_of_some hb]

theorem perform_assign_of_some {scope assigned : Scope} {name : String} {value : Value}
    (h : scope.assign? (.text name) value = some assigned) :
    scope.perform (.tryAssign name value) = (.told true, assigned) ∧
      scope.perform (.assign name value) = (.done, assigned) := by
  simp [perform, h]

theorem perform_assign_of_none {scope : Scope} {name : String} {value : Value}
    (h : scope.assign? (.text name) value = none) :
    scope.perform (.tryAssign name value) = (.told false, scope) ∧
      scope.perform (.assign name value) = (.undefined name, scope) := by
  simp [perform, h]

/-! ## Any row of steps -/

/-- The scope after a row of steps. -/
def after (scope : Scope) : List Operation → Scope
  | [] => scope
  | step :: later => (scope.perform step).2.after later

theorem after_append (scope : Scope) (first second : List Operation) :
    scope.after (first ++ second) = (scope.after first).after second := by
  induction first generalizing scope with
  | nil => rfl
  | cons step later ih => exact ih (scope.perform step).2

/-- Every frame binds each of its names once. -/
def IsProper (scope : Scope) : Prop :=
  ∀ frame ∈ scope.frames, frame.names.Nodup

theorem IsProper.rebindsInnermost {scope scope' : Scope} {name : Json} {value : Value}
    (h : scope.IsProper) (hrebinds : scope.RebindsInnermost name value scope') :
    scope'.IsProper := by
  obtain ⟨inside, frame, changed, outside, hold, hnew, -, -, hframe⟩ := hrebinds
  unfold IsProper at h ⊢
  rw [hold, List.forall_mem_append, List.forall_mem_cons] at h
  rw [hnew, List.forall_mem_append, List.forall_mem_cons, hframe.names]
  exact h

theorem IsProper.define {scope : Scope} (h : scope.IsProper) (name : Json) (value : Value) :
    (scope.define name value).IsProper := by
  unfold IsProper at h ⊢
  rw [frames_eq_cons, List.forall_mem_cons] at h
  rw [frames_define, List.forall_mem_cons]
  exact ⟨Frame.nodup_names_set h.1 name value, h.2⟩

/-- Every step leaves frames that bind each name once. -/
theorem IsProper.perform {scope : Scope} (h : scope.IsProper) (step : Operation) :
    (scope.perform step).2.IsProper := by
  cases step with
  | push => exact List.forall_mem_cons.mpr ⟨List.nodup_nil, h⟩
  | pop =>
      cases scope with
      | outermost frame => exact h
      | inner frame outer => exact (List.forall_mem_cons.mp h).2
  | get name =>
      cases hget : scope.get? (.text name) with
      | none => rwa [perform_get_of_none hget]
      | some value => rwa [perform_get_of_some hget]
  | define name value => exact h.define (.text name) value
  | assign name value =>
      cases hassign : scope.assign? (.text name) value with
      | none => rwa [(perform_assign_of_none hassign).2]
      | some assigned =>
          rw [(perform_assign_of_some hassign).2]
          exact h.rebindsInnermost (rebindsInnermost_of_assign? hassign)
  | tryAssign name value =>
      cases hassign : scope.assign? (.text name) value with
      | none => rwa [(perform_assign_of_none hassign).1]
      | some assigned =>
          rw [(perform_assign_of_some hassign).1]
          exact h.rebindsInnermost (rebindsInnermost_of_assign? hassign)

theorem IsProper.after {scope : Scope} (h : scope.IsProper) (steps : List Operation) :
    (scope.after steps).IsProper := by
  induction steps generalizing scope with
  | nil => exact h
  | cons step later ih => exact ih (h.perform step)

theorem isProper_empty : empty.IsProper :=
  List.forall_mem_singleton.mpr List.nodup_nil

/-- The steps that declare names one after the other. -/
def declarations (bindings : List (String × Value)) : List Operation :=
  bindings.map fun binding => .define binding.1 binding.2

/-- Declarations fill the innermost frame. -/
theorem after_declarations (frame : Frame) (outer : Scope) (bindings : List (String × Value)) :
    ∃ filled, (inner frame outer).after (declarations bindings) = inner filled outer := by
  induction bindings generalizing frame with
  | nil => exact ⟨frame, rfl⟩
  | cons binding later ih => exact ih (frame.set (.text binding.1) binding.2)

/-- What is declared in a new frame is gone when the frame is closed. -/
theorem after_push_pop (scope : Scope) (bindings : List (String × Value)) :
    scope.after (.push :: declarations bindings ++ [.pop]) = scope := by
  obtain ⟨filled, hfilled⟩ := after_declarations [] scope bindings
  rw [after_append]
  change ((inner [] scope).after (declarations bindings)).after [.pop] = scope
  rw [hfilled]
  rfl

/-! ## The laws -/

/-- In every chain that any row of steps leads to, each frame binds a name once, and for every name:
it can be assigned exactly if it has a value; assigning then gives it the new value in the innermost
frame that binds it and changes nothing else; otherwise assigning changes nothing at all.  Declaring
changes no frame but the innermost, and no other name there.  Opening a frame, declaring names in it
and closing it changes nothing. -/
theorem chain_laws (history : List Operation) (name : String) (value : Value) :
    let scope := empty.after history
    scope.IsProper ∧
    ((scope.perform (.tryAssign name value)).1 = .told true ↔
      ∃ old, (scope.perform (.get name)).1 = .found old) ∧
    ((scope.perform (.assign name value)).1 = .done ↔
      ∃ old, (scope.perform (.get name)).1 = .found old) ∧
    (∀ old, (scope.perform (.get name)).1 = .found old →
      ∃ assigned, scope.perform (.tryAssign name value) = (.told true, assigned) ∧
        scope.perform (.assign name value) = (.done, assigned) ∧
        (assigned.perform (.get name)).1 = .found value ∧
        (∀ other, other ≠ name →
          (assigned.perform (.get other)).1 = (scope.perform (.get other)).1) ∧
        scope.RebindsInnermost (.text name) value assigned) ∧
    ((∀ old, (scope.perform (.get name)).1 ≠ .found old) →
      scope.perform (.get name) = (.undefined name, scope) ∧
      scope.perform (.tryAssign name value) = (.told false, scope) ∧
      scope.perform (.assign name value) = (.undefined name, scope)) ∧
    (∃ frame, (scope.perform (.define name value)).2.frames = frame :: scope.frames.tail ∧
      frame.get? (.text name) = some value ∧
      (∀ other, other ≠ .text name → frame.get? other = scope.innermost.get? other) ∧
      ((scope.perform (.define name value)).2.perform (.get name)).1 = .found value) ∧
    ∀ bindings, scope.after (.push :: declarations bindings ++ [.pop]) = scope := by
  intro scope
  have hproper : scope.IsProper := isProper_empty.after history
  have hbound := isSome_assign? scope (.text name) value
  have hdefine : ∃ frame, (scope.define (.text name) value).frames = frame :: scope.frames.tail ∧
      frame.get? (.text name) = some value ∧
      (∀ other, other ≠ .text name → frame.get? other = scope.innermost.get? other) ∧
      ((scope.define (.text name) value).perform (.get name)).1 = .found value := by
    refine ⟨_, frames_define scope (.text name) value, ?_, fun other hother => ?_, ?_⟩
    · rw [Frame.get?_set, if_pos rfl]
    · rw [Frame.get?_set, if_neg (Ne.symm hother)]
    · rw [perform_get_eq_found_iff, get?_define, if_pos rfl]
  cases hget : scope.get? (.text name) with
  | none =>
      have hassign : scope.assign? (.text name) value = none := by simpa [hget] using hbound
      obtain ⟨htry, hassign⟩ := perform_assign_of_none hassign
      rw [htry, hassign, perform_get_of_none hget]
      exact ⟨hproper, by simp, by simp, nofun, fun _ => ⟨rfl, rfl, rfl⟩, hdefine,
        after_push_pop scope⟩
  | some old =>
      obtain ⟨assigned, hassign⟩ : ∃ assigned, scope.assign? (.text name) value = some assigned :=
        Option.isSome_iff_exists.mp (by rw [hbound, hget]; rfl)
      have hlookup := get?_of_assign? hassign
      obtain ⟨htry, hdone⟩ := perform_assign_of_some hassign
      rw [htry, hdone, perform_get_of_some hget]
      refine ⟨hproper, by simp, by simp, fun _ _ => ⟨assigned, rfl, rfl, ?_, fun other hother => ?_,
        rebindsInnermost_of_assign? hassign⟩, fun hnone => (hnone old rfl).elim, hdefine,
        after_push_pop scope⟩
      · rw [perform_get_eq_found_iff, hlookup, if_pos rfl]
      · apply perform_get_congr
        rw [hlookup, if_neg (by simpa using Ne.symm hother)]

/-- A name that is bound in two frames, seen from a third. -/
def Sample.shadowing : List Operation :=
  [.define "x" (.integer 1), .push, .define "x" (.integer 2), .push]

/-- The inner of two bindings is found and changed; a name without a value is not assigned. -/
theorem chain_laws_shadowing :
    let scope := empty.after Sample.shadowing
    (∃ assigned, scope.perform (.tryAssign "x" (.integer 3)) = (.told true, assigned) ∧
      scope.RebindsInnermost (.text "x") (.integer 3) assigned) ∧
    scope.perform (.assign "y" (.integer 3)) = (.undefined "y", scope) := by
  intro scope
  constructor
  · obtain ⟨-, -, -, hbound, -⟩ := chain_laws Sample.shadowing "x" (.integer 3)
    obtain ⟨assigned, htry, -, -, -, hrebinds⟩ := hbound (.integer 2) rfl
    exact ⟨assigned, htry, hrebinds⟩
  · obtain ⟨-, -, -, -, hunbound, -⟩ := chain_laws Sample.shadowing "y" (.integer 3)
    exact (hunbound nofun).2.2

end Scope

end Slang
