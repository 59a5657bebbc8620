import Slang.Proofs.Run.Input
import Slang.Proofs.Run.Reach

/-!
# Sessions and their input

The input of a session is shared by its units.  A unit takes whole lines off it, and leaves the rest
to the units after it.  It cannot look ahead: if every request found a line, and the last of these
lines was ended by a line break, then all that comes later could be replaced.
-/

namespace Slang

/-- The session with another input. -/
def Session.withInput (input : List Char) (session : Session) : Session :=
  { session with state := { session.state with input := input } }

/-- The step with another input left. -/
def Step.withInput (input : List Char) (step : Step) : Step :=
  { step with session := step.session.withInput input }

namespace Session

/-! ## Requests for input -/

theorem printed_runProgram (settings : Settings) (session : Session) (program : List Node) :
    (session.runProgram settings program).printed.countP Printed.isPrompt =
      (Node.execAll settings program session.state).printed.countP Printed.isPrompt := by
  unfold runProgram
  dsimp only
  split
  · rfl
  · simp [fail, Printed.isPrompt]

theorem countP_warnings (diagnostics : List Diagnostic) :
    (diagnostics.map Printed.ofDiagnostic).countP Printed.isPrompt = 0 := by
  simp [List.countP_eq_zero, Printed.ofDiagnostic, Printed.isPrompt]

/-- A unit asks for input as often as its statements do. -/
theorem countP_run (settings : Settings) (session : Session) (unit : ProgramUnit) :
    (unit.run settings session).printed.countP Printed.isPrompt =
      (Node.execAll settings unit.statements session.state).printed.countP Printed.isPrompt := by
  cases unit with
  | tree statements => exact printed_runProgram settings session statements
  | source text =>
      cases hprogram : Parser.program (Scan.ofSource text).tokens with
      | error e =>
          simp only [ProgramUnit.run, ProgramUnit.statements, runSource, hprogram, fail,
            List.countP_append, countP_warnings]
          rfl
      | ok program =>
          rw [ProgramUnit.statements_of_program hprogram]
          simp only [ProgramUnit.run, runSource, hprogram, List.countP_append, countP_warnings,
            Nat.zero_add]
          exact printed_runProgram settings session program

/-! ## Other input -/

theorem runProgram_withInput
    {settings : Settings} {session : Session} {program : List Node} {input rest : List Char}
    (h : ReadsLines input (Node.entriesAll settings program session.state) rest) :
    (session.withInput input).runProgram settings program =
      (session.runProgram settings program).withInput rest := by
  have hexec := Node.execAll_withInput settings program session.state h
  simp only [runProgram, withInput, hexec, Outcome.withInput, Step.withInput]
  split <;> rfl

/-- A unit makes the same step on another input in which the same lines can be read. -/
theorem run_withInput
    {settings : Settings} {session : Session} {unit : ProgramUnit} {input rest : List Char}
    (h : ReadsLines input (Node.entriesAll settings unit.statements session.state) rest) :
    unit.run settings (session.withInput input) =
      (unit.run settings session).withInput rest := by
  cases unit with
  | tree statements => exact runProgram_withInput h
  | source text =>
      cases hprogram : Parser.program (Scan.ofSource text).tokens with
      | error e =>
          rw [ProgramUnit.statements, hprogram] at h
          obtain rfl := h.eq_of_nil
          simp only [ProgramUnit.run, runSource, hprogram, fail, Step.withInput, withInput]
      | ok program =>
          rw [ProgramUnit.statements_of_program hprogram] at h
          simp only [ProgramUnit.run, runSource, hprogram, runProgram_withInput h, Step.withInput]

end Session

/-- A run depends only on the lines that it reads.  What a unit leaves of the input is a suffix of
it.  The unit takes off as many lines as it asks for, as long as there are lines; each request reads
the next line, and an empty one when there is none.  Suppose that every request found a line, and
that the lines which were taken off all end in a line break.  Then these lines can be followed by
any other text: the unit prints the same, ends in the same way, leaves the same bindings and does
not touch the other text. -/
theorem Session.run_depends_only_on_lines_read
    (settings : Settings) (session : Session) (unit : ProgramUnit) :
    let input := session.state.input
    let entries := Node.entriesAll settings unit.statements session.state
    let step := unit.run settings session
    let rest := step.session.state.input
    step.printed.countP Printed.isPrompt = entries.length ∧
    rest <:+ input ∧ inputLines rest = (inputLines input).drop entries.length ∧
    (inputLines input).length - (inputLines rest).length =
      min entries.length (inputLines input).length ∧
    entries = ((inputLines input).take entries.length).map lineText ++
      List.replicate (entries.length - (inputLines input).length) [] ∧
    ∀ taken : List Char, input = taken ++ rest → (taken = [] ∨ taken.getLast? = some '\n') →
      entries.length ≤ (inputLines input).length →
      ∀ text : List Char,
        let other := unit.run settings (session.withInput (taken ++ text))
        other.printed = step.printed ∧ other.ok = step.ok ∧
          other.session.state.scope = step.session.state.scope ∧
          other.session.state.input = text := by
  intro input entries step rest
  obtain ⟨hlines, hprompts⟩ := Node.reads_execAll settings unit.statements session.state
  have hrest : rest = (Node.execAll settings unit.statements session.state).state.input :=
    congrArg State.input (state_run settings session unit)
  rw [← hrest] at hlines
  have hdrop : inputLines rest = (inputLines input).drop entries.length := hlines.inputLines_rest
  have hlength : (inputLines rest).length = (inputLines input).length - entries.length := by
    rw [hdrop, List.length_drop]
  refine ⟨(countP_run settings session unit).trans hprompts, hlines.suffix, hdrop, by omega,
    hlines.entries_eq, ?_⟩
  intro taken hinput htaken henough text other
  -- Exactly the lines of the text that was taken off have been read.
  have htakenLines : (inputLines taken).length = entries.length := by
    have happend := congrArg List.length (HasWholeLines.inputLines_append htaken rest)
    rw [← hinput, List.length_append] at happend
    omega
  have hread : ReadsLines (taken ++ rest) entries rest := by
    rw [← hinput]
    exact hlines
  obtain ⟨unread, -, hunread, hother⟩ :=
    hread.of_hasWholeLines htaken (Nat.le_of_eq htakenLines.symm)
  have hnone : unread = [] := by
    rw [List.drop_eq_nil_of_le (Nat.le_of_eq htakenLines)] at hunread
    rw [← flatten_inputLines unread, hunread, List.flatten_nil]
  rw [hnone] at hother
  have hsame : other = step.withInput text := run_withInput (hother text)
  rw [hsame]
  exact ⟨rfl, rfl, rfl, rfl⟩

namespace Sample

/-- A text that asks again if the answer is not empty. -/
def asking : String := "listen \"A? \" as @x bet x listen \"B? \" as $y"

/-- The statements of the text. -/
def asks : List Node :=
  let x : Mark := ⟨.identifier, .text "x", .null, .integer 1⟩
  [.listen (.text "A? ") ⟨.sigilIdentifier, .text "@x", .null, .integer 1⟩,
    .conditional (.identifier x)
      (.listen (.text "B? ") ⟨.sigilIdentifier, .text "$y", .null, .integer 1⟩) .absent]

theorem statements_asking : (ProgramUnit.source asking).statements = asks := by
  have htokens : (Scan.ofSource asking).tokens =
      [⟨.listen, "listen", .absent, 1⟩, ⟨.text, "\"A? \"", .text "A? ", 1⟩,
        ⟨.asWord, "as", .absent, 1⟩, ⟨.sigilIdentifier, "@x", .absent, 1⟩,
        ⟨.bet, "bet", .absent, 1⟩, ⟨.identifier, "x", .absent, 1⟩,
        ⟨.listen, "listen", .absent, 1⟩, ⟨.text, "\"B? \"", .text "B? ", 1⟩,
        ⟨.asWord, "as", .absent, 1⟩, ⟨.sigilIdentifier, "$y", .absent, 1⟩,
        ⟨.endOfFile, "", .absent, 1⟩] := by decide +kernel
  have hprogram : Parser.program (Scan.ofSource asking).tokens = .ok asks := by
    rw [htokens]
    cbv
  exact ProgramUnit.statements_of_program hprogram

theorem entriesAll_asks :
    Node.entriesAll ⟨false, 0⟩ asks (Session.start "yes\n7\nmore").state =
      ["yes".toList, "7".toList] := by
  decide +kernel

theorem input_asks :
    (Node.execAll ⟨false, 0⟩ asks (Session.start "yes\n7\nmore").state).state.input =
      "more".toList := by
  decide +kernel

end Sample

theorem Session.run_depends_only_on_lines_read_sample :
    let settings : Settings := ⟨false, 0⟩
    let session : Session := .start "yes\n7\nmore"
    let unit : ProgramUnit := .source Sample.asking
    let entries := Node.entriesAll settings unit.statements session.state
    let step := unit.run settings session
    entries = ["yes".toList, "7".toList] ∧ step.session.state.input = "more".toList ∧
      session.state.input = "yes\n7\n".toList ++ step.session.state.input ∧
      "yes\n7\n".toList.getLast? = some '\n' ∧
      entries.length ≤ (inputLines session.state.input).length ∧
      ∀ text : List Char,
        let other := unit.run settings (session.withInput ("yes\n7\n".toList ++ text))
        other.printed = step.printed ∧ other.ok = step.ok ∧
          other.session.state.scope = step.session.state.scope ∧
          other.session.state.input = text := by
  intro settings session unit entries step
  have hentries : entries = ["yes".toList, "7".toList] := by
    rw [← Sample.entriesAll_asks, ← Sample.statements_asking]
  have hrest : step.session.state.input = "more".toList := by
    rw [← Sample.input_asks, ← Sample.statements_asking]
    exact congrArg State.input (state_run settings session unit)
  have hinput : session.state.input = "yes\n7\n".toList ++ step.session.state.input := by
    rw [hrest]
    rfl
  have hlast : "yes\n7\n".toList.getLast? = some '\n' := by decide
  have henough : entries.length ≤ (inputLines session.state.input).length := by
    rw [hentries]
    decide
  obtain ⟨-, -, -, -, -, hother⟩ := run_depends_only_on_lines_read settings session unit
  exact ⟨hentries, hrest, hinput, hlast, henough,
    hother "yes\n7\n".toList hinput (.inr hlast) henough⟩

end Slang
