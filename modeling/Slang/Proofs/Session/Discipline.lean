import Slang.Proofs.Run.Isolation
import Slang.Proofs.Run.Reach

/-!
# Discipline of sigils

Declarations, assignments and listens convert a value in different ways before they bind it, but
each of them that has a sigil binds a value of the kind of the sigil, or the ghosted value.  A name
that is given values under one sigil only is therefore never bound to anything else.
-/

namespace Slang

/-! ## Values that fit -/

namespace Sigil

/-- A variable with the sigil may be bound to the value. -/
def Holds (sigil : Sigil) (value : Value) : Prop :=
  value = .ghosted ∨ value.kind = sigil.kind

variable {data : Json} {sigil : Sigil}

/-- The integer sigil admits doubles as well; all other admitted values may be bound as they are. -/
theorem holds_of_admits {value : Value} (h : sigil.admits value = true)
    (hdouble : ∀ x, value = .number x → sigil ≠ .integer) : sigil.Holds value := by
  unfold admits at h
  split at h
  · exact .inl rfl
  · exact .inr rfl
  · exact .inr rfl
  · rename_i x
    exact (hdouble x rfl rfl).elim
  · exact .inr rfl
  · cases h

/-- A value that passes the check is kept, and is admitted unless it is ghosted. -/
theorem admits_of_check (hsigil : ofJson? data = some sigil) (value : Value) {fitted : Value}
    (h : (do check value data; return value) = Except.ok fitted) :
    fitted = value ∧ (value = .ghosted ∨ sigil.admits value = true) := by
  unfold check at h
  rw [hsigil] at h
  by_cases hghosted : value = .ghosted
  · rw [if_pos hghosted] at h
    cases h
    exact ⟨rfl, .inl hghosted⟩
  · rw [if_neg hghosted] at h
    by_cases hadmits : sigil.admits value = true
    · simp only [hadmits, if_true] at h
      cases h
      exact ⟨rfl, .inr hadmits⟩
    · simp only [hadmits] at h
      cases h

/-- A value that has been made to fit a sigil may be bound to a variable with that sigil. -/
theorem holds_of_coerce (hsigil : ofJson? data = some sigil) {value fitted : Value}
    (h : coerce value data = .ok fitted) : sigil.Holds fitted := by
  unfold coerce at h
  rw [hsigil] at h
  split at h
  · -- A double for the integer sigil becomes the integer that it stands for.
    rename_i x hinteger
    cases hinteger
    unfold wholeNumber at h
    cases hwhole : Double.toInt? x with
    | none =>
        rw [hwhole] at h
        cases h
    | some n =>
        rw [hwhole] at h
        obtain ⟨rfl, -⟩ := admits_of_check hsigil (.integer n) h
        exact .inr rfl
  · rename_i hother
    obtain ⟨rfl, hghosted | hadmits⟩ := admits_of_check hsigil _ h
    · exact .inl hghosted
    · apply holds_of_admits hadmits
      intro x hvalue hinteger
      exact hother x hvalue (congrArg some hinteger)

end Sigil

theorem holds_of_fit {data : Json} {sigil : Sigil} (hsigil : Sigil.ofJson? data = some sigil)
    {value fitted : Value} {target : Mark} (h : fit value data target = .ok fitted) :
    sigil.Holds fitted := by
  unfold fit at h
  split at h
  · rename_i hcoerce
    cases h
    exact Sigil.holds_of_coerce hsigil hcoerce
  · cases hname : target.name with
    | ok name =>
        rw [hname] at h
        cases h
    | error fault =>
        rw [hname] at h
        cases h

/-! ## Sigils of variables -/

namespace Mark

/-- The sigil at the front of a variable. -/
def sigil? (mark : Mark) : Option Sigil :=
  match mark.lexeme with
  | .text s => Sigil.ofText? (Sigil.leading s)
  | _ => none

/-- The sigil that an assignment to the variable respects. -/
def assignedSigil? (mark : Mark) : Option Sigil :=
  if mark.kind = .sigilIdentifier then mark.sigil? else none

theorem ofJson?_of_front {mark : Mark} {data : Json} (h : mark.front = .ok data) :
    Sigil.ofJson? data = mark.sigil? := by
  unfold front at h
  unfold sigil?
  split at h <;> cases h
  · rename_i s hlexeme
    rw [hlexeme]
    rfl
  · rename_i items hlexeme
    rw [hlexeme]
    rfl

end Mark

theorem holds_of_fitAssigned {target : Mark} {sigil : Sigil}
    (hsigil : target.assignedSigil? = some sigil) {value fitted : Value}
    (h : fitAssigned value target = .ok fitted) : sigil.Holds fitted := by
  obtain ⟨hkind, hfrontSigil⟩ := Option.ite_none_right_eq_some.mp hsigil
  cases hfront : target.front with
  | error fault =>
      rw [fitAssigned, hfront] at h
      cases h
  | ok data =>
      have hdata : Sigil.ofJson? data = some sigil :=
        (Mark.ofJson?_of_front hfront).trans hfrontSigil
      have hplain : data.isCompound = false := by
        cases data with
        | text s => rfl
        | _ => cases hdata
      simp only [fitAssigned, hfront, hkind, hdata, hplain, bind, Except.bind, if_true] at h
      rw [if_neg Bool.false_ne_true] at h
      split at h
      · rename_i hnone
        cases hnone
      · -- The content of a character is made to fit in its place.
        exact holds_of_fit hdata h
      · exact holds_of_fit hdata h

/-! ## Names and the sigils under which they are given values -/

namespace Node

mutual

/-- The names that a statement gives values to, at any depth, each with the sigil that is respected
there, if there is one. -/
def uses : Node → List (Json × Option Sigil)
  | .declaration sigil name _ => [(name.lexeme, Sigil.ofJson? sigil)]
  | .assignment target _ => target.variables.map (·, target.assignedSigil?)
  | .listen _ target => target.variables.map (·, target.sigil?)
  | .block body => usesAll body
  | .conditional _ consequent alternative => uses consequent ++ uses alternative
  | _ => []

/-- The names that statements give values to, with their sigils. -/
def usesAll : List Node → List (Json × Option Sigil)
  | [] => []
  | node :: later => uses node ++ usesAll later

end

theorem usesAll_eq_flatMap (body : List Node) : usesAll body = body.flatMap uses := by
  induction body with
  | nil => rfl
  | cons node later ih => rw [usesAll, ih, List.flatMap_cons]

/-- A name is given a value only where it is used, and the sigil there may hold the value. -/
theorem Gives.exists_use {node : Node} {name : Json} {value : Value} (h : node.Gives name value) :
    ∃ used : Option Sigil, (name, used) ∈ node.uses ∧
      ∀ sigil, used = some sigil → sigil.Holds value := by
  induction h with
  | @declaration sigil name _ _ _ hfit =>
      refine ⟨Sigil.ofJson? sigil, ?_, fun _ hsigil => holds_of_fit hsigil hfit⟩
      unfold uses
      exact List.mem_singleton_self _
  | @assignment target _ _ _ name hfit hname =>
      refine ⟨target.assignedSigil?, ?_, fun _ hsigil => holds_of_fitAssigned hsigil hfit⟩
      simp [uses, Mark.variables, hname]
  | @listen _ target _ _ _ name hfront hfit hname =>
      refine ⟨target.sigil?, ?_, fun _ hsigil => ?_⟩
      · simp [uses, Mark.variables, hname]
      · exact holds_of_fit ((Mark.ofJson?_of_front hfront).trans hsigil) hfit
  | @block node body _ _ hmem _ ih =>
      obtain ⟨used, huse, hholds⟩ := ih
      refine ⟨used, ?_, hholds⟩
      unfold uses
      rw [usesAll_eq_flatMap]
      exact List.mem_flatMap.mpr ⟨node, hmem, huse⟩
  | consequent _ ih =>
      obtain ⟨used, huse, hholds⟩ := ih
      exact ⟨used, by simp [uses, huse], hholds⟩
  | alternative _ ih =>
      obtain ⟨used, huse, hholds⟩ := ih
      exact ⟨used, by simp [uses, huse], hholds⟩

end Node

/-- Sigil discipline is kept in all states that a session reaches.  If all declarations, listens and
assignments of a name, in texts and in trees, have one and the same sigil, then the name is bound to
a value of the kind of this sigil or to the ghosted value.  This holds in every frame, between any
two statements and inside of blocks, and after runs that end and runs that fail. -/
theorem Session.reached_bindings_respect_sigil
    (settings : Settings) (input : String) {units : List ProgramUnit} {name : Json} {sigil : Sigil}
    (huses : ∀ unit ∈ units, ∀ use ∈ Node.usesAll unit.statements,
      use.1.normal = name.normal → use.2 = some sigil)
    {state : State} (hreached : Session.Reaches settings units (.start input) state)
    {frame : Frame} (hframe : frame ∈ state.scope.frames)
    {binding : Json × Value} (hbinding : binding ∈ frame)
    (hname : binding.1.normal = name.normal) :
    binding.2 = .ghosted ∨ binding.2.kind = sigil.kind := by
  have hgives : ∀ unit ∈ units, ∀ node ∈ unit.statements,
      node.GivesOnly fun given value => given = name.normal → sigil.Holds value := by
    intro unit hunit node hnode given value hgive hgiven
    obtain ⟨used, huse, hholds⟩ := hgive.exists_use
    have hall : (given, used) ∈ Node.usesAll unit.statements := by
      rw [Node.usesAll_eq_flatMap]
      exact List.mem_flatMap.mpr ⟨node, hnode, huse⟩
    exact hholds sigil (huses unit hunit _ hall hgiven)
  have hall := hreached.all hgives (Scope.all_empty _)
  exact hall frame hframe binding hbinding hname

namespace Sample

/-- A text that asks for an integer. -/
def question : String := "listen \"How many? \" as $x"

/-- The variable of the question. -/
def count : Mark := ⟨.sigilIdentifier, .text "$x", .null, .integer 1⟩

/-- An assignment of a text to the variable. -/
def wrongKind : Node := .assignment count (.text ⟨.text, .text "many", .text "many", .null⟩)

/-- The question, and a tree that fails inside a block. -/
def asked : List ProgramUnit := [.source question, .tree [.block [wrongKind]]]

/-- The state inside the block after an answer. -/
def answered : State := ⟨.inner [] (.outermost [(.text "x", .integer 7)]), []⟩

theorem statements_question :
    (ProgramUnit.source question).statements = [.listen (.text "How many? ") count] := by
  have htokens : (Scan.ofSource question).tokens =
      [⟨.listen, "listen", .absent, 1⟩, ⟨.text, "\"How many? \"", .text "How many? ", 1⟩,
        ⟨.asWord, "as", .absent, 1⟩, ⟨.sigilIdentifier, "$x", .absent, 1⟩,
        ⟨.endOfFile, "", .absent, 1⟩] := by decide +kernel
  have hprogram : Parser.program (Scan.ofSource question).tokens =
      .ok [.listen (.text "How many? ") count] := by
    rw [htokens]
    cbv
  exact ProgramUnit.statements_of_program hprogram

theorem reaches_answered (settings : Settings) :
    Session.Reaches settings asked (.start "7") answered := by
  have hanswer : ((ProgramUnit.source question).run settings (.start "7")).session.state =
      ⟨.outermost [(.text "x", .integer 7)], []⟩ := by
    rw [Session.state_run, statements_question]
    rfl
  refine .later (.during ?_)
  rw [hanswer]
  exact .inside (.left wrongKind [] answered)

theorem usesAll_asked : ∀ unit ∈ asked, ∀ use ∈ Node.usesAll unit.statements,
    use.1.normal = (Json.text "x").normal → use.2 = some .integer := by
  have hquestion : Node.usesAll (ProgramUnit.source question).statements =
      [(.text "x", some .integer)] := by
    rw [statements_question]
    rfl
  have htree : Node.usesAll (ProgramUnit.tree [.block [wrongKind]]).statements =
      [(.text "x", some .integer)] := rfl
  simp [asked, hquestion, htree]

end Sample

theorem Session.reached_bindings_respect_sigil_answered :
    Session.Reaches ⟨false, 0⟩ Sample.asked (.start "7") Sample.answered ∧
      [(.text "x", .integer 7)] ∈ Sample.answered.scope.frames ∧
      (Value.integer 7 = .ghosted ∨ (Value.integer 7).kind = Sigil.integer.kind) := by
  have hreached := Sample.reaches_answered ⟨false, 0⟩
  have hframe : [(.text "x", .integer 7)] ∈ Sample.answered.scope.frames := .tail _ (.head _)
  have hrespects := Session.reached_bindings_respect_sigil ⟨false, 0⟩ "7" Sample.usesAll_asked
    hreached hframe (.head _) rfl
  exact ⟨hreached, hframe, hrespects⟩

end Slang
