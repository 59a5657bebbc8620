import Mathlib.Data.List.Forall2
import Slang.Proofs.Run.Observe
import Slang.Proofs.Run.Reach
import Slang.Proofs.Session.Report

/-!
# Tracing and echoing only observe

A session may be traced at any level, and it may be a dialogue or not.  Its steps leave the same
session and end in the same way.  A lower level leaves events out of the trace, and outside of a
dialogue no values are echoed; everything else that is printed or traced stays in its place.
-/

namespace Slang

/-- What is left of a step under other settings. -/
def Step.seenBy (settings : Settings) (step : Step) : Step :=
  { step with
    printed := step.printed.filter settings.shows
    traced := step.traced.filter settings.records }

/-- The value of an expression that stands as a statement. -/
def Printed.isEcho : Printed → Bool
  | .echo _ => true
  | _ => false

theorem Outcome.IsSafe.isPrintable {tokens : List Token} {outcome : Outcome}
    (h : outcome.IsSafe tokens) : outcome.IsPrintable :=
  fun reason hfault => h.fault (.unprintable reason) hfault

namespace Session

variable {quiet loud : Settings}

/-! ## A step -/

/-- A program that has been parsed keeps values plain and does not fail to print one. -/
theorem exists_isSafe_of_parsed {source : String} {program : List Node}
    (h : Parser.program (Scan.ofSource source).tokens = .ok program) (settings : Settings)
    {state : State} (hscope : state.scope.IsPlain) :
    ∃ tokens, (Node.execAll settings program state).IsSafe tokens := by
  obtain ⟨tokens, hspelled, hfaithful⟩ := exists_faithful_spelling h
  exact ⟨tokens, hspelled.isSafe hfaithful settings hscope⟩

theorem isPlain_runSource (settings : Settings) {session : Session} (source : String)
    (hscope : session.state.scope.IsPlain) :
    (session.runSource settings source).session.state.scope.IsPlain := by
  have hstate := state_run settings session (.source source)
  cases hprogram : Parser.program (Scan.ofSource source).tokens with
  | error e =>
      rw [ProgramUnit.run, ProgramUnit.statements, hprogram] at hstate
      rw [hstate]
      exact hscope
  | ok program =>
      obtain ⟨tokens, hsafe⟩ := exists_isSafe_of_parsed hprogram settings hscope
      rw [ProgramUnit.run, ProgramUnit.statements, hprogram] at hstate
      rw [hstate]
      exact hsafe.scope

@[simp] theorem filter_shows_failure (settings : Settings) (failure : Failure) :
    [Printed.failure failure].filter settings.shows = [.failure failure] := rfl

@[simp] theorem filter_shows_warnings (settings : Settings) (diagnostics : List Diagnostic) :
    (diagnostics.map Printed.ofDiagnostic).filter settings.shows =
      diagnostics.map Printed.ofDiagnostic := by
  rw [List.filter_eq_self]
  intro p hp
  obtain ⟨d, -, rfl⟩ := List.mem_map.mp hp
  rfl

theorem runProgram_seenBy
    (h : quiet.Quieter loud) (session : Session) (program : List Node)
    (hprintable : (Node.execAll loud program session.state).IsPrintable) :
    session.runProgram quiet program = (session.runProgram loud program).seenBy quiet := by
  rw [runProgram, runProgram, Node.execAll_seenBy h program session.state hprintable]
  cases hfault : (Node.execAll loud program session.state).fault with
  | none => simp [Outcome.seenBy, Step.seenBy, h.trace_eq, hfault]
  | some fault => simp [Outcome.seenBy, Step.seenBy, h.trace_eq, hfault, fail]

theorem scanTrace_seenBy (h : quiet.Quieter loud) (scan : Scan) :
    scanTrace quiet scan = (scanTrace loud scan).filter quiet.records := by
  simp [scanTrace, h.trace_eq, List.filter_flatMap]

/-- A source text makes the same step under quieter settings. -/
theorem runSource_seenBy
    (h : quiet.Quieter loud) {session : Session} (hscope : session.state.scope.IsPlain)
    (source : String) :
    session.runSource quiet source = (session.runSource loud source).seenBy quiet := by
  cases hprogram : Parser.program (Scan.ofSource source).tokens with
  | error e =>
      simp [runSource, hprogram, Step.seenBy, fail, scanTrace_seenBy h]
  | ok program =>
      obtain ⟨tokens, hsafe⟩ := exists_isSafe_of_parsed hprogram loud hscope
      have hran := runProgram_seenBy h session program hsafe.isPrintable
      simp [runSource, hprogram, hran, Step.seenBy, scanTrace_seenBy h, h.trace_eq]

/-! ## A session -/

/-- The steps of a session that runs source texts one after the other. -/
def steps (settings : Settings) : Session → List String → List Step
  | _, [] => []
  | session, source :: later =>
    let step := session.runSource settings source
    step :: steps settings step.session later

/-- A session makes the same steps under quieter settings. -/
theorem steps_seenBy
    (h : quiet.Quieter loud) {session : Session} (hscope : session.state.scope.IsPlain)
    (sources : List String) :
    steps quiet session sources = (steps loud session sources).map (Step.seenBy quiet) := by
  induction sources generalizing session with
  | nil => rfl
  | cons source later ih =>
      have hstep := runSource_seenBy h hscope source
      have hlater := ih (isPlain_runSource loud source hscope)
      simp only [steps, List.map_cons, hstep]
      rw [← hlater]
      rfl

/-- Nothing was shown in a step that its own settings do not show. -/
theorem seenBy_of_mem_steps
    {settings : Settings} {session : Session} (hscope : session.state.scope.IsPlain)
    {sources : List String} {step : Step} (h : step ∈ steps settings session sources) :
    step.seenBy settings = step := by
  have hsame : (steps settings session sources).map (Step.seenBy settings) =
      (steps settings session sources).map id := by
    rw [List.map_id]
    exact (steps_seenBy ⟨id, Nat.le_refl _⟩ hscope sources).symm
  exact List.map_inj_left.mp hsame step h

/-- Tracing and echoing only observe.  At two levels of the trace, a session prints the same, leaves
the same frame and the same input and ends its steps in the same way, and the messages of the lower
level are among those of the higher one, in their order.  A session that is no dialogue does all
this as a dialogue does, and it prints what the dialogue prints without the echoed values. -/
theorem settings_only_observe (input : String) (sources : List String) :
    (∀ (interactive : Bool) (low high : Nat), low ≤ high →
      List.Forall₂
        (fun traced more : Step =>
          traced.session = more.session ∧ traced.ok = more.ok ∧ traced.printed = more.printed ∧
            (traced.traced.map Event.text).Sublist (more.traced.map Event.text))
        (steps ⟨interactive, low⟩ (.start input) sources)
        (steps ⟨interactive, high⟩ (.start input) sources)) ∧
    ∀ level : Nat,
      List.Forall₂
        (fun silent echoing : Step =>
          silent.session = echoing.session ∧ silent.ok = echoing.ok ∧
            silent.printed = echoing.printed.filter fun p => !p.isEcho)
        (steps ⟨false, level⟩ (.start input) sources)
        (steps ⟨true, level⟩ (.start input) sources) := by
  have hscope : (Session.start input).state.scope.IsPlain := Scope.isPlain_empty
  constructor
  · intro interactive low high hle
    have hquieter : Settings.Quieter ⟨interactive, low⟩ ⟨interactive, high⟩ := ⟨id, hle⟩
    rw [steps_seenBy hquieter hscope, List.forall₂_map_left_iff, List.forall₂_same]
    intro step hstep
    have hprinted := congrArg Step.printed (seenBy_of_mem_steps hscope hstep)
    exact ⟨rfl, rfl, hprinted, List.filter_sublist.map Event.text⟩
  · intro level
    have hquieter : Settings.Quieter ⟨false, level⟩ ⟨true, level⟩ := ⟨fun _ => rfl, Nat.le_refl _⟩
    rw [steps_seenBy hquieter hscope, List.forall₂_map_left_iff, List.forall₂_same]
    intro step _
    refine ⟨rfl, rfl, List.filter_congr fun p _ => ?_⟩
    cases p <;> rfl

end Session

namespace Sample

/-- A text that is echoed. -/
def echoed : String := "fr"

/-- A text that fails in a block after an echo. -/
def broken : String := ": cap spill x"

theorem program_echoed :
    Parser.program (Scan.ofSource echoed).tokens =
      .ok [.expression (.boolean ⟨.fr, .text "fr", .null, .integer 1⟩)] := by
  cbv

theorem program_broken :
    Parser.program (Scan.ofSource broken).tokens =
      .ok [.block [.expression (.boolean ⟨.cap, .text "cap", .null, .integer 1⟩),
        .spill (.identifier ⟨.identifier, .text "x", .null, .integer 1⟩)]] := by
  cbv

theorem printed_dialogue :
    (Session.steps ⟨true, 4⟩ (.start "") [echoed, broken]).map (·.printed) =
      [[.echo "true"],
        [.echo "false", .failure (.runtime (.integer 1) "Undefined variable 'x'.")]] := by
  obtain ⟨hsession, -, hprinted⟩ :=
    Session.runSource_of_program program_echoed ⟨true, 4⟩ (.start "")
  obtain ⟨-, -, hprinted'⟩ := Session.runSource_of_program program_broken ⟨true, 4⟩
    ((Session.start "").runSource ⟨true, 4⟩ echoed).session
  have hwarnings : (Scan.ofSource echoed).diagnostics = [] := by decide +kernel
  have hwarnings' : (Scan.ofSource broken).diagnostics = [] := by decide +kernel
  rw [hwarnings] at hprinted
  rw [hwarnings', hsession] at hprinted'
  simp only [Session.steps, List.map_cons, List.map_nil, hprinted, hsession, hprinted']
  rfl

end Sample

theorem Session.settings_only_observe_sample :
    let sources := [Sample.echoed, Sample.broken]
    1 ≤ 4 ∧
    List.Forall₂
      (fun traced more : Step =>
        traced.session = more.session ∧ traced.ok = more.ok ∧ traced.printed = more.printed ∧
          (traced.traced.map Event.text).Sublist (more.traced.map Event.text))
      (steps ⟨true, 1⟩ (.start "") sources) (steps ⟨true, 4⟩ (.start "") sources) ∧
    (steps ⟨true, 4⟩ (.start "") sources).map (·.printed) =
      [[.echo "true"],
        [.echo "false", .failure (.runtime (.integer 1) "Undefined variable 'x'.")]] := by
  intro sources
  have hle : 1 ≤ 4 := by decide
  exact ⟨hle, (settings_only_observe "" sources).1 true 1 4 hle, Sample.printed_dialogue⟩

end Slang
