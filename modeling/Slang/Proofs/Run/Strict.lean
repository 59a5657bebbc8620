import Slang.Proofs.Grammar.Sound
import Slang.Run.Eval

/-!
# Strict evaluation

An expression has a value only if every part of it has one, also where an operator could be decided
by its left operand alone.  The parts of an expression are listed here with the operands in front of
the operator, from left to right.  When an expression fails, it fails with the fault of the first
part in this order that has all its operands and fails by itself.
-/

namespace Slang

open Grammar

namespace Node

/-! ## The parts of an expression -/

/-- The parts of an expression, each after its own parts and the left ones before the right ones.
The last of them is the expression itself. -/
def parts : Node → List Node
  | .group inner => parts inner ++ [.group inner]
  | .unary operator operand => parts operand ++ [.unary operator operand]
  | .binary left operator right => parts left ++ parts right ++ [.binary left operator right]
  | node => [node]

mutual

/-- All expressions that occur in a statement, at any depth of blocks, branches and operators. -/
def expressions : Node → List Node
  | .spill value | .expression value | .declaration _ _ value | .assignment _ value => parts value
  | .block body => expressionsAll body
  | .conditional condition consequent alternative =>
    parts condition ++ expressions consequent ++ expressions alternative
  | _ => []

/-- All expressions that occur in statements. -/
def expressionsAll : List Node → List Node
  | [] => []
  | node :: later => expressions node ++ expressionsAll later

end

/-- The expression has a value in the scope. -/
def HasValue (scope : Scope) (node : Node) : Prop :=
  ∃ value, node.eval scope = .ok value

/-- All operands of the node have values, and the node fails all the same.  The fault is at the
node's own token: the variable, or the operator. -/
inductive FailsItself (scope : Scope) : Node → Fault → Prop
  | undefined {mark : Mark} {name : String} (hname : mark.name = .ok name)
      (hunbound : scope.get? (.text name) = none) :
      FailsItself scope (.identifier mark) (.runtime mark (.undefinedVariable name))
  | unary {operator : Mark} {operand : Node} {value : Value} {cause : Cause}
      (hoperand : operand.eval scope = .ok value) (hfails : value.unary operator = .error cause) :
      FailsItself scope (.unary operator operand) (.runtime operator cause)
  | binary {left right : Node} {operator : Mark} {a b : Value} {cause : Cause}
      (hleft : left.eval scope = .ok a) (hright : right.eval scope = .ok b)
      (hfails : Value.binary operator a b = .error cause) :
      FailsItself scope (.binary left operator right) (.runtime operator cause)

theorem mem_parts_self (node : Node) : node ∈ node.parts := by
  cases node <;> simp [parts]

/-! ## Evaluation by parts -/

section Evaluation

variable {scope : Scope}

theorem eval_unary_of_ok {operator : Mark} {operand : Node} {value : Value}
    (h : operand.eval scope = .ok value) :
    (unary operator operand).eval scope = Fault.locate operator (value.unary operator) := by
  simp only [eval, h, bind, Except.bind]

theorem eval_unary_of_error {operator : Mark} {operand : Node} {fault : Fault}
    (h : operand.eval scope = .error fault) :
    (unary operator operand).eval scope = .error fault := by
  simp only [eval, h, bind, Except.bind]

theorem eval_binary_of_ok {left right : Node} {operator : Mark} {a b : Value}
    (hleft : left.eval scope = .ok a) (hright : right.eval scope = .ok b) :
    (binary left operator right).eval scope =
      Fault.locate operator (Value.binary operator a b) := by
  simp only [eval, hleft, hright, bind, Except.bind]

theorem eval_binary_of_left_error {left right : Node} {operator : Mark} {fault : Fault}
    (h : left.eval scope = .error fault) :
    (binary left operator right).eval scope = .error fault := by
  simp only [eval, h, bind, Except.bind]

theorem eval_binary_of_right_error {left right : Node} {operator : Mark} {a : Value} {fault : Fault}
    (hleft : left.eval scope = .ok a) (hright : right.eval scope = .error fault) :
    (binary left operator right).eval scope = .error fault := by
  simp only [eval, hleft, hright, bind, Except.bind]

/-- A node that fails by itself has no value. -/
theorem FailsItself.eval_eq {node : Node} {fault : Fault} (h : node.FailsItself scope fault) :
    node.eval scope = .error fault := by
  cases h with
  | undefined hname hunbound => simp only [eval, Scope.read, hname, hunbound, bind, Except.bind]
  | unary hoperand hfails =>
      rw [eval_unary_of_ok hoperand, hfails]
      rfl
  | binary hleft hright hfails =>
      rw [eval_binary_of_ok hleft hright, hfails]
      rfl

theorem HasValue.not_failsItself {node : Node} (h : node.HasValue scope) (fault : Fault) :
    ¬node.FailsItself scope fault := by
  obtain ⟨value, hvalue⟩ := h
  intro hfails
  rw [hfails.eval_eq] at hvalue
  cases hvalue

theorem HasValue.operand {operator : Mark} {operand : Node}
    (h : (unary operator operand).HasValue scope) : operand.HasValue scope := by
  obtain ⟨value, hvalue⟩ := h
  cases hoperand : operand.eval scope with
  | ok a => exact ⟨a, hoperand⟩
  | error fault =>
      rw [eval_unary_of_error hoperand] at hvalue
      cases hvalue

/-- Both operands are evaluated, whatever the left one is. -/
theorem HasValue.operands {left right : Node} {operator : Mark}
    (h : (binary left operator right).HasValue scope) :
    left.HasValue scope ∧ right.HasValue scope := by
  obtain ⟨value, hvalue⟩ := h
  cases hleft : left.eval scope with
  | error fault =>
      rw [eval_binary_of_left_error hleft] at hvalue
      cases hvalue
  | ok a =>
      cases hright : right.eval scope with
      | error fault =>
          rw [eval_binary_of_right_error hleft hright] at hvalue
          cases hvalue
      | ok b => exact ⟨⟨a, hleft⟩, ⟨b, hright⟩⟩

/-- With an expression all its parts have values. -/
theorem HasValue.parts {node : Node} (h : node.HasValue scope) :
    ∀ part ∈ node.parts, part.HasValue scope := by
  fun_induction Node.parts node with
  | case1 inner ih =>
      have hinner : inner.HasValue scope := h
      exact List.forall_mem_append.mpr ⟨ih hinner, List.forall_mem_singleton.mpr h⟩
  | case2 operator operand ih =>
      exact List.forall_mem_append.mpr ⟨ih h.operand, List.forall_mem_singleton.mpr h⟩
  | case3 left operator right ihLeft ihRight =>
      obtain ⟨hleft, hright⟩ := h.operands
      have hoperands := List.forall_mem_append.mpr ⟨ihLeft hleft, ihRight hright⟩
      exact List.forall_mem_append.mpr ⟨hoperands, List.forall_mem_singleton.mpr h⟩
  | case4 node => exact List.forall_mem_singleton.mpr h

theorem hasValue_iff_parts (scope : Scope) (node : Node) :
    node.HasValue scope ↔ ∀ part ∈ node.parts, part.HasValue scope :=
  ⟨HasValue.parts, fun h => h node node.mem_parts_self⟩

/-- A variable with a value is bound. -/
theorem HasValue.bound {mark : Mark} (h : (identifier mark).HasValue scope) :
    ∃ name value, mark.name = .ok name ∧ scope.get? (.text name) = some value := by
  obtain ⟨value, hvalue⟩ := h
  cases hname : mark.name with
  | error fault =>
      simp only [eval, Scope.read, hname, bind, Except.bind] at hvalue
      cases hvalue
  | ok name =>
      cases hget : scope.get? (.text name) with
      | some found => exact ⟨name, found, rfl, hget⟩
      | none =>
          simp only [eval, Scope.read, hname, hget, bind, Except.bind] at hvalue
          cases hvalue

/-! ## The first part that fails -/

/-- All parts up to one have values, and this one fails by itself with the fault. -/
def FailsFirst (scope : Scope) (parts : List Node) (fault : Fault) : Prop :=
  ∃ before part after, parts = before ++ part :: after ∧
    (∀ earlier ∈ before, earlier.HasValue scope) ∧ part.FailsItself scope fault

theorem FailsFirst.append_right {parts : List Node} {fault : Fault}
    (h : FailsFirst scope parts fault) (later : List Node) :
    FailsFirst scope (parts ++ later) fault := by
  obtain ⟨before, part, after, rfl, hbefore, hpart⟩ := h
  exact ⟨before, part, after ++ later, by simp, hbefore, hpart⟩

theorem FailsFirst.append_left {parts front : List Node} {fault : Fault}
    (h : FailsFirst scope parts fault) (hfront : ∀ part ∈ front, part.HasValue scope) :
    FailsFirst scope (front ++ parts) fault := by
  obtain ⟨before, part, after, rfl, hbefore, hpart⟩ := h
  exact ⟨front ++ before, part, after, by simp, List.forall_mem_append.mpr ⟨hfront, hbefore⟩, hpart⟩

theorem FailsItself.failsFirst {node : Node} {fault : Fault} (h : node.FailsItself scope fault) :
    FailsFirst scope [node] fault :=
  ⟨[], node, [], rfl, List.forall_mem_nil _, h⟩

/-- What is wrong with the operands is reported at the operator. -/
theorem exists_cause_of_locate {mark : Mark} {result : Except Cause Value} {fault : Fault}
    (h : Fault.locate mark result = .error fault) :
    ∃ cause, result = .error cause ∧ fault = .runtime mark cause := by
  cases result with
  | ok value => cases h
  | error cause =>
      cases h
      exact ⟨cause, rfl, rfl⟩

theorem failsItself_of_read {t : Token} {fault : Fault}
    (h : (identifier t.mark).eval scope = .error fault) :
    (identifier t.mark).FailsItself scope fault := by
  have hname : t.mark.name = .ok (Sigil.strip t.lexeme) := rfl
  cases hget : scope.get? (.text (Sigil.strip t.lexeme)) with
  | some value =>
      simp only [eval, Scope.read, hname, hget, bind, Except.bind] at h
      cases h
  | none =>
      have hfails := FailsItself.undefined hname hget
      rw [hfails.eval_eq] at h
      cases h
      exact hfails

/-- An expression fails with the fault of the first of its parts that fails by itself. -/
theorem failsFirst_of_error {node : Node} {tokens : List Token} (h : SpellsExpression node tokens)
    {fault : Fault} (hfault : node.eval scope = .error fault) :
    FailsFirst scope node.parts fault := by
  induction h with
  | number hkind => cases hfault
  | text hkind => cases hfault
  | character hkind => cases hfault
  | boolean hkind => cases hfault
  | ghosted hkind => cases hfault
  | identifier hkind => exact (failsItself_of_read hfault).failsFirst
  | group hopening hclosing hinner ih => exact (ih hfault).append_right _
  | @unary operator operand row hoperator hoperand ih =>
      cases hvalue : operand.eval scope with
      | error found =>
          rw [eval_unary_of_error hvalue] at hfault
          cases hfault
          exact (ih hvalue).append_right _
      | ok value =>
          rw [eval_unary_of_ok hvalue] at hfault
          obtain ⟨cause, hcause, rfl⟩ := exists_cause_of_locate hfault
          have hfails := FailsItself.unary hvalue hcause
          exact hfails.failsFirst.append_left (HasValue.parts ⟨value, hvalue⟩)
  | @binary operator left right first second hoperator hleft hright ihLeft ihRight =>
      cases ha : left.eval scope with
      | error found =>
          rw [eval_binary_of_left_error ha] at hfault
          cases hfault
          exact ((ihLeft ha).append_right _).append_right _
      | ok a =>
          have hfront : ∀ part ∈ left.parts, part.HasValue scope := HasValue.parts ⟨a, ha⟩
          cases hb : right.eval scope with
          | error found =>
              rw [eval_binary_of_right_error ha hb] at hfault
              cases hfault
              exact ((ihRight hb).append_left hfront).append_right _
          | ok b =>
              rw [eval_binary_of_ok ha hb] at hfault
              obtain ⟨cause, hcause, rfl⟩ := exists_cause_of_locate hfault
              have hfails := FailsItself.binary ha hb hcause
              exact hfails.failsFirst.append_left
                (List.forall_mem_append.mpr ⟨hfront, HasValue.parts ⟨b, hb⟩⟩)

end Evaluation

end Node

/-! ## Expressions of parsed programs -/

namespace Grammar

/-- The parts of a spelled expression are spelled. -/
theorem SpellsExpression.parts {node : Node} {tokens : List Token}
    (h : SpellsExpression node tokens) :
    ∀ part ∈ node.parts, ∃ row, SpellsExpression part row := by
  have hself : ∃ row, SpellsExpression node row := ⟨tokens, h⟩
  induction h with
  | group hopening hclosing hinner ih =>
      exact List.forall_mem_append.mpr ⟨ih ⟨_, hinner⟩, List.forall_mem_singleton.mpr hself⟩
  | unary hoperator hoperand ih =>
      exact List.forall_mem_append.mpr ⟨ih ⟨_, hoperand⟩, List.forall_mem_singleton.mpr hself⟩
  | binary hoperator hleft hright ihLeft ihRight =>
      have hoperands := List.forall_mem_append.mpr ⟨ihLeft ⟨_, hleft⟩, ihRight ⟨_, hright⟩⟩
      exact List.forall_mem_append.mpr ⟨hoperands, List.forall_mem_singleton.mpr hself⟩
  | _ => exact List.forall_mem_singleton.mpr hself

mutual

theorem Spells.expressions {node : Node} {tokens : List Token} (h : Spells node tokens) :
    ∀ e ∈ node.expressions, ∃ row, SpellsExpression e row := by
  cases h with
  | spill hword hvalue => exact hvalue.parts
  | expression hvalue => exact hvalue.parts
  | declaration htarget _ hword hvalue => exact hvalue.parts
  | teaDeclaration htea htarget _ hword hvalue => exact hvalue.parts
  | assignment htarget hword hvalue => exact hvalue.parts
  | listen hlisten hprompt hword htarget => exact List.forall_mem_nil _
  | block hopening hclosing hbody => exact hbody.expressions
  | conditional hbet hcondition hconsequent =>
      have hfirst := List.forall_mem_append.mpr ⟨hcondition.parts, hconsequent.expressions⟩
      exact List.forall_mem_append.mpr ⟨hfirst, List.forall_mem_nil _⟩
  | alternative hbet hcondition hconsequent hdeadass hotherwise =>
      have hfirst := List.forall_mem_append.mpr ⟨hcondition.parts, hconsequent.expressions⟩
      exact List.forall_mem_append.mpr ⟨hfirst, hotherwise.expressions⟩

theorem SpellsAll.expressions {body : List Node} {tokens : List Token} (h : SpellsAll body tokens) :
    ∀ e ∈ Node.expressionsAll body, ∃ row, SpellsExpression e row := by
  cases h with
  | nil => exact List.forall_mem_nil _
  | cons hnode hlater =>
      exact List.forall_mem_append.mpr ⟨hnode.expressions, hlater.expressions⟩

end

end Grammar

/-- Evaluation is strict.  An expression of a parsed program has a value exactly if all its parts
have values, both operands of every operator among them.  If it fails, its fault is that of the
first part, operands before operators and left before right, that fails although all its own
operands have values.  Where an expression has a value, every variable that occurs in it is
bound. -/
theorem evaluation_is_strict
    {tokens : List Token} {program : List Node} (h : Parser.program tokens = .ok program)
    {e : Node} (he : e ∈ Node.expressionsAll program) (scope : Scope) :
    (e.HasValue scope ↔ ∀ part ∈ e.parts, part.HasValue scope) ∧
    (∀ fault, e.eval scope = .error fault →
      ∃ before part after, e.parts = before ++ part :: after ∧
        (∀ earlier ∈ before, ∀ other, ¬earlier.FailsItself scope other) ∧
        part.FailsItself scope fault) ∧
    (e.HasValue scope → ∀ mark, .identifier mark ∈ e.parts →
      ∃ name value, mark.name = .ok name ∧ scope.get? (.text name) = some value) := by
  obtain ⟨-, used, rest, row, -, -, hspelled, -⟩ := Grammar.spelled_of_program _ program h
  obtain ⟨row, hrow⟩ := hspelled.expressions e he
  refine ⟨Node.hasValue_iff_parts scope e, fun fault hfault => ?_, fun hvalue mark hmark => ?_⟩
  · obtain ⟨before, part, after, hparts, hbefore, hpart⟩ := Node.failsFirst_of_error hrow hfault
    exact ⟨before, part, after, hparts, fun m hm => (hbefore m hm).not_failsItself, hpart⟩
  · exact (hvalue.parts _ hmark).bound

namespace Sample

open Grammar.Sample (token)

/-- The tokens of `spill cap & x - y`. -/
def conjoined : List Token :=
  [token .spill "spill", token .cap "cap", token .and "&", token .identifier "x", token .minus "-",
    token .identifier "y", token .endOfFile ""]

/-- A difference with two faults where `x` is a text and `y` is not bound. -/
def faulty : Node :=
  .binary (.identifier (token .identifier "x").mark) (token .minus "-").mark
    (.identifier (token .identifier "y").mark)

/-- A conjunction that its left side decides. -/
def conjunction : Node :=
  .binary (.boolean (token .cap "cap").mark) (token .and "&").mark faulty

end Sample

theorem evaluation_is_strict_conjunction :
    let e := Sample.conjunction
    let scope : Scope := .outermost [(.text "x", .text "s")]
    let fault : Fault :=
      .runtime (Grammar.Sample.token .identifier "y").mark (.undefinedVariable "y")
    Parser.program Sample.conjoined = .ok [.spill e] ∧ e ∈ Node.expressionsAll [.spill e] ∧
      e.eval scope = .error fault ∧
      ∃ before part after, e.parts = before ++ part :: after ∧
        (∀ earlier ∈ before, ∀ other, ¬earlier.FailsItself scope other) ∧
        part.FailsItself scope fault := by
  intro e scope fault
  have hparsed : Parser.program Sample.conjoined = .ok [.spill e] := by cbv
  have he : e ∈ Node.expressionsAll [.spill e] := List.mem_append_left _ e.mem_parts_self
  have hfault : e.eval scope = .error fault := rfl
  exact ⟨hparsed, he, hfault, (evaluation_is_strict hparsed he scope).2.1 fault hfault⟩

end Slang
