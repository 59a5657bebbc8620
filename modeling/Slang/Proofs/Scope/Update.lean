import Slang.Scope

/-!
# Updates of a scope

What declaring and assigning do to the names of the frames and to what is looked up.  To a look-up
the two are the same: the name now has the new value, and every other name has the value it had.
They differ in the frame that is changed.
-/

namespace Slang

/-- Nothing but a text has a text as its normal form. -/
theorem Json.eq_text_of_normal {name : Json} {s : String} (h : name.normal = .text s) :
    name = .text s := by
  cases name with
  | text t =>
      rw [Json.normal] at h
      exact h
  | number x =>
      rw [Json.normal, Json.normalNumber] at h
      split at h <;> cases h
  | _ =>
      rw [Json.normal] at h
      cases h

/-! ## Frames -/

namespace Frame

/-- The bound names, in the order in which they were first bound. -/
def names (frame : Frame) : List Json :=
  frame.map (·.1)

@[simp] theorem get?_nil (name : Json) : get? [] name = none := rfl

theorem get?_cons (binding : Json × Value) (later : Frame) (name : Json) :
    get? (binding :: later) name = if binding.1 = name then some binding.2 else get? later name := by
  obtain ⟨bound, value⟩ := binding
  by_cases h : bound = name
  · simp [get?, h]
  · have hne : (name == bound) = false := by simpa using Ne.symm h
    simp [get?, List.lookup_cons, hne, h]

theorem set_cons (binding : Json × Value) (later : Frame) (name : Json) (value : Value) :
    set (binding :: later) name value =
      if binding.1 = name then (name, value) :: later else binding :: set later name value :=
  rfl

@[simp] theorem get?_set (frame : Frame) (name : Json) (value : Value) (other : Json) :
    (frame.set name value).get? other = if name = other then some value else frame.get? other := by
  induction frame with
  | nil => simp [set, get?_cons]
  | cons binding later ih =>
      rw [set_cons]
      by_cases hbound : binding.1 = name
      · rw [if_pos hbound, get?_cons, get?_cons, hbound]
        by_cases hother : name = other
        · simp [hother]
        · simp [hother]
      · rw [if_neg hbound, get?_cons, get?_cons, ih]
        by_cases hother : name = other
        · subst hother
          simp [hbound]
        · simp [hother]

theorem isSome_get?_iff (frame : Frame) (name : Json) :
    (frame.get? name).isSome = true ↔ name ∈ frame.names := by
  induction frame with
  | nil => simp [names]
  | cons binding later ih =>
      by_cases h : binding.1 = name
      · simp [get?_cons, names, h]
      · simpa [get?_cons, names, h, Ne.symm h] using ih

theorem names_set_of_isSome {frame : Frame} {name : Json} (h : (frame.get? name).isSome = true)
    (value : Value) : (frame.set name value).names = frame.names := by
  induction frame with
  | nil => cases h
  | cons binding later ih =>
      rw [set_cons]
      by_cases hbound : binding.1 = name
      · simp [names, hbound]
      · rw [get?_cons, if_neg hbound] at h
        rw [if_neg hbound]
        exact congrArg (List.cons binding.1) (ih h)

theorem names_prefix_set (frame : Frame) (name : Json) (value : Value) :
    frame.names <+: (frame.set name value).names := by
  induction frame with
  | nil => exact List.nil_prefix
  | cons binding later ih =>
      rw [set_cons]
      by_cases hbound : binding.1 = name
      · simp [names, hbound]
      · rw [if_neg hbound]
        exact (List.prefix_cons_inj binding.1).mpr ih

theorem mem_set {frame : Frame} {name : Json} {value : Value} {binding : Json × Value}
    (h : binding ∈ frame.set name value) : binding = (name, value) ∨ binding ∈ frame := by
  induction frame with
  | nil => exact .inl (List.mem_singleton.mp h)
  | cons first later ih =>
      rw [set_cons] at h
      split at h
      · exact (List.mem_cons.mp h).imp_right fun hlater => .tail first hlater
      · obtain rfl | hlater := List.mem_cons.mp h
        · exact .inr (.head later)
        · exact (ih hlater).imp_right fun hmem => .tail first hmem

/-- A declaration binds under a name that means the same. -/
theorem normal_boundName (frame : Frame) (name : Json) :
    (frame.boundName name).normal = name.normal := by
  unfold boundName
  split
  · rfl
  · cases hfind : frame.find? fun binding => binding.1.normal = name.normal with
    | none => rfl
    | some binding => simpa using List.find?_some hfind

/-- A declaration binds a text only under the text itself. -/
theorem eq_text_of_boundName {frame : Frame} {name : Json} {s : String}
    (h : frame.boundName name = .text s) : name = .text s := by
  unfold boundName at h
  split at h
  · exact h
  · cases hfind : frame.find? fun binding => binding.1.normal = name.normal with
    | none =>
        rw [hfind] at h
        exact h
    | some binding =>
        rw [hfind] at h
        have hbound : binding.1 = .text s := h
        have hnormal : binding.1.normal = name.normal := by
          simpa using List.find?_some hfind
        rw [hbound, Json.normal] at hnormal
        exact Json.eq_text_of_normal hnormal.symm

end Frame

/-! ## Scopes -/

namespace Scope

theorem frames_ne_nil (scope : Scope) : scope.frames ≠ [] := by
  cases scope <;> simp [frames]

theorem frames_eq_cons (scope : Scope) : scope.frames = scope.innermost :: scope.frames.tail := by
  cases scope <;> rfl

theorem frames_pop {scope : Scope} (h : scope.frames.tail ≠ []) :
    scope.pop.frames = scope.frames.tail := by
  cases scope with
  | outermost frame => exact (h rfl).elim
  | inner frame outer => rfl

@[simp] theorem frames_define (scope : Scope) (name : Json) (value : Value) :
    (scope.define name value).frames = scope.innermost.set name value :: scope.frames.tail := by
  cases scope <;> rfl

@[simp] theorem innermost_define (scope : Scope) (name : Json) (value : Value) :
    (scope.define name value).innermost = scope.innermost.set name value := by
  cases scope <;> rfl

@[simp] theorem get?_define (scope : Scope) (name : Json) (value : Value) (other : Json) :
    (scope.define name value).get? other = if name = other then some value else scope.get? other := by
  cases scope with
  | outermost frame => exact Frame.get?_set frame name value other
  | inner frame outer =>
      by_cases h : name = other <;> simp [define, get?, h]

/-- A name is bound if one of the frames binds it. -/
theorem isSome_get?_iff (scope : Scope) (name : Json) :
    (scope.get? name).isSome = true ↔ ∃ frame ∈ scope.frames, name ∈ frame.names := by
  induction scope with
  | outermost frame => simp [get?, frames, Frame.isSome_get?_iff]
  | inner frame outer ih =>
      cases hframe : frame.get? name with
      | some value =>
          have hmem : name ∈ frame.names := (frame.isSome_get?_iff name).mp (by simp [hframe])
          simp [get?, frames, hframe, hmem]
      | none =>
          have hmem : name ∉ frame.names := fun h => by
            simpa [hframe] using (frame.isSome_get?_iff name).mpr h
          simp [get?, frames, hframe, hmem, ih]

/-- A name can be assigned if and only if it is bound. -/
theorem isSome_assign? (scope : Scope) (name : Json) (value : Value) :
    (scope.assign? name value).isSome = (scope.get? name).isSome := by
  induction scope with
  | outermost frame =>
      by_cases h : (frame.get? name).isSome = true <;> simp [assign?, get?, h]
  | inner frame outer ih =>
      cases hframe : frame.get? name with
      | some old => simp [assign?, get?, hframe]
      | none => simp [assign?, get?, hframe, ih]

theorem get?_of_assign? {scope scope' : Scope} {name : Json} {value : Value}
    (h : scope.assign? name value = some scope') (other : Json) :
    scope'.get? other = if name = other then some value else scope.get? other := by
  induction scope generalizing scope' with
  | outermost frame =>
      obtain ⟨-, hscope⟩ := Option.ite_none_right_eq_some.mp h
      cases hscope
      exact Frame.get?_set frame name value other
  | inner frame outer ih =>
      unfold assign? at h
      by_cases hframe : (frame.get? name).isSome = true
      · rw [if_pos hframe] at h
        cases h
        by_cases hother : name = other <;> simp [get?, hother]
      · rw [if_neg hframe] at h
        obtain ⟨outer', houter, rfl⟩ := Option.map_eq_some_iff.mp h
        -- The frame does not bind the name, so that the look-up goes on outside.
        by_cases hother : name = other
        · subst hother
          have hnone : frame.get? name = none := by simpa using hframe
          simp [get?, hnone, ih houter]
        · simp [get?, ih houter, hother]

end Scope

end Slang
