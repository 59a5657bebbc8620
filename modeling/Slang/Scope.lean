import Slang.Value.Basic

/-!
# Scopes

A scope is a chain of frames, the innermost first. A name is looked up from the inside out.
Declaring binds in the innermost frame; assigning rebinds the name where it is found. Names are
texts, but a tree may also declare other data; what is bound to these cannot be looked up by any
expression.

The steps by which a scope is used are operations with answers. Looking up a name and assigning to
it fail if no frame binds the name; trying to assign tells whether one does.
-/

namespace Slang

/-- The bindings of one level, in the order in which the names were first bound. -/
abbrev Frame := List (Json × Value)

namespace Frame

/-- The value of a name. -/
def get? (frame : Frame) (name : Json) : Option Value :=
  frame.lookup name

/-- Binds a name, in its old place if it is bound already. -/
def set : Frame → Json → Value → Frame
  | [], name, value => [(name, value)]
  | (bound, old) :: later, name, value =>
    if bound = name then (name, value) :: later else (bound, old) :: set later name value

/-- The name under which a declaration binds. Data that mean the same are one name, the one that was
bound first. -/
def boundName (frame : Frame) : Json → Json
  | .text name => .text name
  | name => ((frame.find? fun binding => binding.1.normal = name.normal).map (·.1)).getD name

/-- The order of names: texts by their characters, after all other data. -/
def nameLe : Json → Json → Bool
  | .text a, .text b => a ≤ b
  | .text _, _ => false
  | _, .text _ => true
  | a, b =>
    match a.normal, b.normal with
    | .integer m, .integer n => m ≤ n
    | .integer m, .number y => Float.ofInt m ≤ y
    | .number x, .integer n => x ≤ Float.ofInt n
    | .number x, .number y => x ≤ y
    | _, _ => true

/-- The bindings in the order of their names. -/
def sorted (frame : Frame) : Frame :=
  frame.mergeSort fun a b => nameLe a.1 b.1

end Frame

/-- A chain of frames. -/
inductive Scope where
  | outermost (frame : Frame)
  | inner (frame : Frame) (outer : Scope)
deriving DecidableEq

namespace Scope

/-- The scope in which a program starts. -/
def empty : Scope := .outermost []

/-- The frames, from the innermost one out. -/
def frames : Scope → List Frame
  | .outermost frame => [frame]
  | .inner frame outer => frame :: outer.frames

/-- How many frames lie around the innermost one. -/
def depth : Scope → Nat
  | .outermost _ => 0
  | .inner _ outer => outer.depth + 1

/-- The innermost frame. -/
def innermost : Scope → Frame
  | .outermost frame => frame
  | .inner frame _ => frame

/-- The outermost frame. -/
def globals : Scope → Frame
  | .outermost frame => frame
  | .inner _ outer => outer.globals

/-- Opens a new innermost frame. -/
def push (scope : Scope) : Scope :=
  .inner [] scope

/-- Closes the innermost frame; the outermost one stays. -/
def pop : Scope → Scope
  | .outermost frame => .outermost frame
  | .inner _ outer => outer

/-- The value of a name in the innermost frame that binds it. -/
def get? : Scope → Json → Option Value
  | .outermost frame, name => frame.get? name
  | .inner frame outer, name =>
    match frame.get? name with
    | some value => some value
    | none => outer.get? name

/-- Binds a name in the innermost frame. -/
def define : Scope → Json → Value → Scope
  | .outermost frame, name, value => .outermost (frame.set name value)
  | .inner frame outer, name, value => .inner (frame.set name value) outer

/-- Rebinds a name in the innermost frame that binds it; none if no frame does. -/
def assign? : Scope → Json → Value → Option Scope
  | .outermost frame, name, value =>
    if (frame.get? name).isSome then some (.outermost (frame.set name value)) else none
  | .inner frame outer, name, value =>
    if (frame.get? name).isSome then some (.inner (frame.set name value) outer)
    else (outer.assign? name value).map (.inner frame)

end Scope

/-! ## Operations -/

namespace Scope

/-- A step on a scope. -/
inductive Operation where
  | push
  | pop
  | get (name : String)
  | define (name : String) (value : Value)
  | assign (name : String) (value : Value)
  | tryAssign (name : String) (value : Value)
deriving DecidableEq

/-- What a step answers. -/
inductive Answer where
  | done
  | found (value : Value)
  | told (assigned : Bool)
  /-- No frame binds the name. -/
  | undefined (name : String)
deriving DecidableEq

/-- The answer to a step, and the scope after it. -/
def perform (scope : Scope) : Operation → Answer × Scope
  | .push => (.done, scope.push)
  | .pop => (.done, scope.pop)
  | .get name =>
    match scope.get? (.text name) with
    | some value => (.found value, scope)
    | none => (.undefined name, scope)
  | .define name value => (.done, scope.define (.text name) value)
  | .assign name value =>
    match scope.assign? (.text name) value with
    | some assigned => (.done, assigned)
    | none => (.undefined name, scope)
  | .tryAssign name value =>
    match scope.assign? (.text name) value with
    | some assigned => (.told true, assigned)
    | none => (.told false, scope)

end Scope

end Slang
