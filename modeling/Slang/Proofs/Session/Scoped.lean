import Slang.Proofs.Parser.Error
import Slang.Proofs.Run.Reach
import Slang.Proofs.Run.Scoped

/-!
# Reports of scoped programs

A failure is reported with a text, and the reports of a variable that is not bound are told from all
others by the way they begin.  A source text or a tree that is scoped does not report such a failure
in any session in which the names that it starts from are bound.
-/

namespace Slang

/-! ## Texts of reports -/

/-- The text begins like the report of a variable that is not bound. -/
def ReportsUndefined (text : String) : Prop :=
  "Undefined variable".toList <+: text.toList

instance (text : String) : Decidable (ReportsUndefined text) :=
  inferInstanceAs (Decidable (_ <+: _))

/-- A text that begins in another way. -/
theorem not_reportsUndefined_append
    {opening : String} (h : ¬ReportsUndefined opening)
    (hopening : ¬opening.toList <+: "Undefined variable".toList) (rest : String) :
    ¬ReportsUndefined (opening ++ rest) := by
  intro hreports
  have hprefix : opening.toList <+: (opening ++ rest).toList := by
    rw [String.toList_append]
    exact List.prefix_append _ _
  exact (List.prefix_or_prefix_of_prefix hreports hprefix).elim h hopening

theorem Cause.not_reportsUndefined {cause : Cause} (h : ¬cause.IsUndefined) :
    ¬ReportsUndefined cause.message := by
  unfold Cause.message
  cases cause with
  | undefinedVariable name => exact (h trivial).elim
  | divisionByZero => decide
  | moduloByZero => decide
  | _ =>
      simp only [String.append_assoc]
      exact not_reportsUndefined_append (by decide) (by decide) _

theorem Fault.not_reportsUndefined {fault : Fault} (h : ¬fault.IsUndefined) :
    ¬ReportsUndefined fault.message := by
  unfold Fault.message
  split
  case h_1 => exact Cause.not_reportsUndefined h
  case h_2 activity shape =>
    rw [String.append_assoc, String.append_assoc]
    cases activity <;> exact not_reportsUndefined_append (by decide) (by decide) _
  case h_6 => decide
  all_goals
    simp only [String.append_assoc]
    exact not_reportsUndefined_append (by decide) (by decide) _

theorem Expectation.not_reportsUndefined (expected : Expectation) :
    ¬ReportsUndefined expected.message := by
  cases expected <;> decide

theorem Failure.not_reportsUndefined_textOr
    {kind text : String} (hkind : ¬ReportsUndefined kind) (htext : ¬ReportsUndefined text) :
    ¬ReportsUndefined (textOr kind text) := by
  unfold textOr
  split
  · exact hkind
  · exact htext

theorem Failure.not_reportsUndefined_ofFault {fault : Fault} (h : ¬fault.IsUndefined) :
    ¬ReportsUndefined (ofFault fault).message := by
  have hmessage := Fault.not_reportsUndefined h
  cases fault with
  | runtime mark cause => exact not_reportsUndefined_textOr (by decide) hmessage
  | _ => exact hmessage

theorem Failure.not_reportsUndefined_ofParseError (e : ParseError) :
    ¬ReportsUndefined (ofParseError e).message :=
  not_reportsUndefined_textOr (by decide) e.expected.not_reportsUndefined

/-! ## Units -/

namespace Session

theorem runProgram_of_isScopedAll
    (settings : Settings) {session : Session} {program : List Node} {bound : Finset String}
    (hscoped : Node.isScopedAll bound program = true) (hbound : session.state.scope.Binds bound) :
    let step := session.runProgram settings program
    (∀ failure, .failure failure ∈ step.printed → ¬ReportsUndefined failure.message) ∧
      (step.ok = true → step.session.state.scope.Binds (bound ∪ Node.addsAll program)) := by
  have hdefined := Node.isDefined_execAll settings program hscoped hbound
  have hgrows := Node.grows_execAll settings program session.state
  cases hfault : (Node.execAll settings program session.state).fault with
  | none =>
      simp only [runProgram, hfault]
      refine ⟨fun failure hfailure => (hdefined.printed _ hfailure trivial).elim, fun _ => ?_⟩
      exact (hbound.grows hgrows).union (hdefined.binds hfault)
  | some fault =>
      simp only [runProgram, hfault, fail]
      refine ⟨fun failure hfailure => ?_, fun hok => nomatch hok⟩
      rcases List.mem_append.mp hfailure with hprinted | hreported
      · exact (hdefined.printed _ hprinted trivial).elim
      · cases List.mem_singleton.mp hreported
        exact Failure.not_reportsUndefined_ofFault (hdefined.fault fault hfault)

/-- What a source text reports is a parse error, or is reported by its program. -/
theorem mem_printed_runSource
    {settings : Settings} {session : Session} {source : String} {failure : Failure}
    (h : .failure failure ∈ (session.runSource settings source).printed) :
    (∃ e, failure = .ofParseError e) ∨
      .failure failure ∈
        (session.runProgram settings (ProgramUnit.source source).statements).printed := by
  have hwarnings : .failure failure ∉
      (Scan.ofSource source).diagnostics.map Printed.ofDiagnostic := by
    simp [Printed.ofDiagnostic]
  cases hprogram : Parser.program (Scan.ofSource source).tokens with
  | error failed =>
      obtain ⟨e, rfl, -⟩ := exists_parseError_of_source hprogram
      simp only [runSource, hprogram, fail, List.mem_append] at h
      cases List.mem_singleton.mp (h.resolve_left hwarnings)
      exact .inl ⟨e, rfl⟩
  | ok program =>
      simp only [runSource, hprogram, List.mem_append] at h
      rw [ProgramUnit.statements_of_program hprogram]
      exact .inr (h.resolve_left hwarnings)

theorem ok_runProgram_of_runSource
    {settings : Settings} {session : Session} {source : String}
    (h : (session.runSource settings source).ok = true) :
    (session.runProgram settings (ProgramUnit.source source).statements).ok = true := by
  cases hprogram : Parser.program (Scan.ofSource source).tokens with
  | error e =>
      simp [runSource, hprogram, fail] at h
  | ok program =>
      simp only [runSource, hprogram] at h
      rw [ProgramUnit.statements_of_program hprogram]
      exact h

end Session

/-- A scoped program never reads a variable that is not bound.  Take names that are bound when a
unit starts, and let every name that the unit reads be one of these, or be given a value before, in
a way that can be told from the text.  Then nothing that the unit reports is about a variable that
is not defined, whatever the input holds and whichever branches are taken.  If it comes to its end,
all the names that it surely binds are bound. -/
theorem Session.scoped_unit_defines_what_it_reads
    (settings : Settings) (session : Session) (unit : ProgramUnit) (bound : Finset String)
    (hscoped : Node.isScopedAll bound unit.statements = true)
    (hbound : session.state.scope.Binds bound) :
    let step := unit.run settings session
    (∀ failure, .failure failure ∈ step.printed →
      ¬"Undefined variable".toList <+: failure.message.toList) ∧
    (step.ok = true → step.session.state.scope.Binds (bound ∪ Node.addsAll unit.statements)) := by
  cases unit with
  | tree statements => exact runProgram_of_isScopedAll settings hscoped hbound
  | source text =>
      obtain ⟨hreports, hbinds⟩ := runProgram_of_isScopedAll settings hscoped hbound
      refine ⟨fun failure hfailure => ?_, fun hok => ?_⟩
      · rcases mem_printed_runSource hfailure with ⟨e, rfl⟩ | hprinted
        · exact Failure.not_reportsUndefined_ofParseError e
        · exact hreports failure hprinted
      · have hstate := (state_run settings session (.source text)).trans
          (state_runProgram settings session _).symm
        rw [hstate]
        exact hbinds (ok_runProgram_of_runSource hok)

namespace Sample

/-- A text that gives a variable a value on both branches and then reads it. -/
def branching : String := "bet a b as \"x\" deadass b as \"y\" spill b"

/-- The statements of the text. -/
def branched : List Node :=
  let a : Mark := ⟨.identifier, .text "a", .null, .integer 1⟩
  let b : Mark := ⟨.identifier, .text "b", .null, .integer 1⟩
  [.conditional (.identifier a)
    (.assignment b (.text ⟨.text, .text "\"x\"", .text "x", .integer 1⟩))
    (.assignment b (.text ⟨.text, .text "\"y\"", .text "y", .integer 1⟩)),
   .spill (.identifier b)]

/-- A session in which the condition is bound. -/
def decided : Session := ⟨⟨.outermost [(.text "a", .boolean false)], []⟩, false⟩

theorem statements_branching : (ProgramUnit.source branching).statements = branched := by
  have htokens : (Scan.ofSource branching).tokens =
      [⟨.bet, "bet", .absent, 1⟩, ⟨.identifier, "a", .absent, 1⟩,
        ⟨.identifier, "b", .absent, 1⟩, ⟨.asWord, "as", .absent, 1⟩,
        ⟨.text, "\"x\"", .text "x", 1⟩, ⟨.deadass, "deadass", .absent, 1⟩,
        ⟨.identifier, "b", .absent, 1⟩, ⟨.asWord, "as", .absent, 1⟩,
        ⟨.text, "\"y\"", .text "y", 1⟩, ⟨.spill, "spill", .absent, 1⟩,
        ⟨.identifier, "b", .absent, 1⟩, ⟨.endOfFile, "", .absent, 1⟩] := by decide +kernel
  have hprogram : Parser.program (Scan.ofSource branching).tokens = .ok branched := by
    rw [htokens]
    cbv
  exact ProgramUnit.statements_of_program hprogram

end Sample

theorem Session.scoped_unit_defines_what_it_reads_sample :
    let unit : ProgramUnit := .source Sample.branching
    let step := unit.run ⟨false, 0⟩ Sample.decided
    Node.isScopedAll {"a"} unit.statements = true ∧
    Sample.decided.state.scope.Binds {"a"} ∧
    (∀ failure, .failure failure ∈ step.printed →
      ¬"Undefined variable".toList <+: failure.message.toList) ∧
    (step.ok = true →
      step.session.state.scope.Binds ({"a"} ∪ Node.addsAll unit.statements)) := by
  intro unit step
  have hscoped : Node.isScopedAll {"a"} unit.statements = true := by
    rw [Sample.statements_branching]
    decide +kernel
  have hbound : Sample.decided.state.scope.Binds {"a"} := Scope.binds_singleton rfl
  exact ⟨hscoped, hbound,
    scoped_unit_defines_what_it_reads ⟨false, 0⟩ Sample.decided unit {"a"} hscoped hbound⟩

end Slang
