import Slang.Proofs.Session.Join
import Slang.Proofs.Session.Observe

/-!
# Texts that cannot be parsed

A text that cannot be parsed is reported, and nothing else happens.  The session goes on with the
frame and the input that it had, and remembers that there was an error.  No later step depends on
what is remembered, so that the other steps are the same without such texts.
-/

namespace Slang

/-- The steps do the same, whatever errors there were before. -/
structure Step.Alike (first second : Step) : Prop where
  ok : first.ok = second.ok
  printed : first.printed = second.printed
  traced : first.traced = second.traced
  state : first.session.state = second.session.state

namespace Session

/-! ## A step -/

/-- The text can be parsed. -/
def parses (source : String) : Bool :=
  (Parser.program (Scan.ofSource source).tokens).isOk

variable {settings : Settings} {session session' : Session} {source : String}

theorem exists_error_of_not_parses (h : ¬parses source = true) :
    ∃ failure, Parser.program (Scan.ofSource source).tokens = .error failure := by
  unfold parses at h
  cases hprogram : Parser.program (Scan.ofSource source).tokens with
  | error failure => exact ⟨failure, rfl⟩
  | ok program =>
      rw [hprogram] at h
      exact absurd rfl h

/-- What a text that cannot be parsed does: it is scanned, and the failure is reported. -/
theorem runSource_of_error
    {failure : ParseFailure} (h : Parser.program (Scan.ofSource source).tokens = .error failure)
    (settings : Settings) (session : Session) :
    session.runSource settings source =
      ⟨{ session with hadError := true }, false,
        (Scan.ofSource source).diagnostics.map Printed.ofDiagnostic ++
          [.failure (.ofParseFailure failure)],
        scanTrace settings (Scan.ofSource source)⟩ := by
  simp [runSource, h, fail]

theorem runProgram_alike (settings : Settings) (h : session.state = session'.state)
    (program : List Node) :
    (session.runProgram settings program).Alike (session'.runProgram settings program) := by
  unfold runProgram
  rw [h]
  dsimp only
  split <;> exact ⟨rfl, rfl, rfl, rfl⟩

/-- A step depends on the frame and the input only. -/
theorem runSource_alike (settings : Settings) (h : session.state = session'.state)
    (source : String) :
    (session.runSource settings source).Alike (session'.runSource settings source) := by
  cases hprogram : Parser.program (Scan.ofSource source).tokens with
  | error failure =>
      rw [runSource_of_error hprogram, runSource_of_error hprogram]
      exact ⟨rfl, rfl, rfl, h⟩
  | ok program =>
      obtain ⟨hok, hprinted, htraced, hstate⟩ := runProgram_alike settings h program
      simp only [runSource, hprogram, hok, hprinted, htraced]
      exact ⟨rfl, rfl, rfl, hstate⟩

theorem hadError_runProgram (settings : Settings) (session : Session) (program : List Node) :
    let step := session.runProgram settings program
    step.session.hadError = (session.hadError || !step.ok) := by
  cases hfault : (Node.execAll settings program session.state).fault with
  | none => simp [runProgram, hfault]
  | some fault => simp [runProgram, hfault, fail]

/-- An error is remembered by the step that reports it, and is not forgotten. -/
theorem hadError_runSource (settings : Settings) (session : Session) (source : String) :
    let step := session.runSource settings source
    step.session.hadError = (session.hadError || !step.ok) := by
  cases hprogram : Parser.program (Scan.ofSource source).tokens with
  | error failure => simp [runSource_of_error hprogram]
  | ok program =>
      simp only [runSource, hprogram]
      exact hadError_runProgram settings session program

/-! ## A session -/

/-- The steps that a session makes with texts that can be parsed. -/
def parsedSteps (settings : Settings) (session : Session) (sources : List String) : List Step :=
  ((sources.zip (steps settings session sources)).filter fun pair => parses pair.1).map (·.2)

theorem parsedSteps_cons (settings : Settings) (session : Session) (source : String)
    (later : List String) :
    parsedSteps settings session (source :: later) =
      let step := session.runSource settings source
      if parses source then step :: parsedSteps settings step.session later
      else parsedSteps settings step.session later := by
  by_cases h : parses source = true <;> simp [parsedSteps, steps, h]

/-- Without the texts that cannot be parsed, a session makes the same steps. -/
theorem parsedSteps_alike (settings : Settings) (h : session.state = session'.state)
    (sources : List String) :
    List.Forall₂ Step.Alike (parsedSteps settings session sources)
      (steps settings session' (sources.filter parses)) := by
  induction sources generalizing session session' with
  | nil => exact .nil
  | cons source later ih =>
      rw [parsedSteps_cons]
      by_cases hparses : parses source = true
      · have hstep := runSource_alike settings h source
        simp only [hparses, if_true, List.filter_cons, steps]
        exact .cons hstep (ih hstep.state)
      · -- The step is left out, and it has not changed the state.
        obtain ⟨failure, herror⟩ := exists_error_of_not_parses hparses
        have hstate : (session.runSource settings source).session.state = session'.state := by
          rw [runSource_of_error herror]
          exact h
        simp only [hparses, List.filter_cons]
        exact ih hstate

/-- An error is remembered if there was one before, or if one of the steps so far has failed. -/
theorem hadError_of_steps
    {sources : List String} {before after : List Step} {step : Step}
    (h : steps settings session sources = before ++ step :: after) :
    step.session.hadError = (session.hadError || (before ++ [step]).any fun s => !s.ok) := by
  induction sources generalizing session before with
  | nil => simp [steps] at h
  | cons source later ih =>
      have hfirst := hadError_runSource settings session source
      rw [steps] at h
      cases before with
      | nil =>
          obtain ⟨rfl, -⟩ := List.cons.inj h
          simpa using hfirst
      | cons first others =>
          obtain ⟨rfl, hlater⟩ := List.cons.inj h
          rw [ih hlater, hfirst, Bool.or_assoc, List.cons_append, List.any_cons]

/-- The report of a parse error is one line. -/
theorem render_parseError (style : Style) (e : ParseError) :
    (Printed.failure (.ofParseError e)).render style =
      style.location (.integer e.token.line) ++ style.label "Parse Error: " ++ e.expected.message ++
        "\n" := by
  obtain ⟨token, expected⟩ := e
  cases expected <;> rfl

end Session

/-- Texts that cannot be parsed leave no trace in a session.  Such a text has a parse error.  It
prints its warnings and the line of that error, reads nothing and changes no binding.  Without all
such texts the other steps of the session end in the same way, print the same and leave the same
bindings and input.  After each step, an error is remembered if and only if this step or an earlier
one has failed. -/
theorem Session.unparsed_texts_leave_no_trace
    (settings : Settings) (input : String) (sources : List String) :
    (∀ (session : Session) (source : String) (failure : ParseFailure),
      Parser.program (Scan.ofSource source).tokens = .error failure →
      let step := session.runSource settings source
      ∃ e : ParseError, failure = .unexpected e ∧
        step.ok = false ∧ step.session.state = session.state ∧
        step.printed = (Scan.ofSource source).diagnostics.map Printed.ofDiagnostic ++
          [.failure (.ofParseError e)] ∧
        ∀ style : Style, (Printed.failure (.ofParseError e)).render style =
          style.location (.integer e.token.line) ++ style.label "Parse Error: " ++
            e.expected.message ++ "\n") ∧
    List.Forall₂
      (fun whole shorter : Step =>
        whole.ok = shorter.ok ∧ whole.printed = shorter.printed ∧
          whole.session.state = shorter.session.state)
      (parsedSteps settings (.start input) sources)
      (steps settings (.start input) (sources.filter parses)) ∧
    ∀ (before : List Step) (step : Step) (after : List Step),
      steps settings (.start input) sources = before ++ step :: after →
      (step.session.hadError = true ↔ ∃ earlier ∈ before ++ [step], earlier.ok = false) := by
  refine ⟨?_, ?_, ?_⟩
  · intro session source failure herror step
    have hstep := runSource_of_error herror settings session
    obtain ⟨e, rfl, -⟩ := exists_parseError_of_source herror
    refine ⟨e, rfl, ?_⟩
    simp only [step, hstep, true_and]
    exact ⟨rfl, fun style => render_parseError style e⟩
  · exact (parsedSteps_alike settings rfl sources).imp
      fun whole shorter halike => ⟨halike.ok, halike.printed, halike.state⟩
  · intro before step after hsteps
    rw [hadError_of_steps hsteps]
    simp [start]

namespace Sample

/-- A text with a character that no token has, and without an expression where one is expected. -/
def garbled : String := "# spill"

/-- A text that gives a variable a value. -/
def given : String := "x as fr"

/-- The parse error of the first text. -/
def halfSaid : ParseError := ⟨⟨.endOfFile, "", .absent, 1⟩, .expression⟩

theorem program_garbled :
    Parser.program (Scan.ofSource garbled).tokens = .error (.unexpected halfSaid) := by
  cbv

theorem program_given :
    Parser.program (Scan.ofSource given).tokens =
      .ok [.assignment ⟨.identifier, .text "x", .null, .integer 1⟩
        (.boolean ⟨.fr, .text "fr", .null, .integer 1⟩)] := by
  cbv

end Sample

theorem Session.unparsed_texts_leave_no_trace_sample :
    let first := Sample.fresh.runSource Sample.silent Sample.garbled
    let second := first.session.runSource Sample.silent Sample.given
    Parser.program (Scan.ofSource Sample.garbled).tokens = .error (.unexpected Sample.halfSaid) ∧
      first.ok = false ∧ first.session.state = Sample.fresh.state ∧
      first.printed = [.warning (.integer 1) "Unexpected character: '#'",
        .failure (.parse (.integer 1) "Expect expression.")] ∧
      steps Sample.silent Sample.fresh [Sample.garbled, Sample.given] = [first] ++ second :: [] ∧
      second.ok = true ∧ second.session.hadError = true := by
  intro first second
  obtain ⟨hunparsed, -, hremembered⟩ :=
    unparsed_texts_leave_no_trace Sample.silent "" [Sample.garbled, Sample.given]
  obtain ⟨e, hhalfSaid, hfails, hstate, hprinted, -⟩ :=
    hunparsed Sample.fresh Sample.garbled (.unexpected Sample.halfSaid) Sample.program_garbled
  cases hhalfSaid
  have hwarnings : (Scan.ofSource Sample.garbled).diagnostics =
      [⟨1, .unexpected '#'⟩] := by decide +kernel
  rw [hwarnings] at hprinted
  have hsteps : steps Sample.silent Sample.fresh [Sample.garbled, Sample.given] =
      [first] ++ second :: [] := rfl
  have hok : second.ok = true := by
    have hrun := (runSource_of_program Sample.program_given Sample.silent first.session).2.1
    rw [hrun, (runProgram_alike Sample.silent hstate _).ok]
    rfl
  exact ⟨Sample.program_garbled, hfails, hstate, hprinted, hsteps, hok,
    (hremembered [first] second [] hsteps).mpr ⟨first, by simp, hfails⟩⟩

end Slang
