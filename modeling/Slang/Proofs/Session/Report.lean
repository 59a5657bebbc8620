import Slang.Proofs.Grammar.Sound
import Slang.Proofs.Parser.Error
import Slang.Proofs.Run.Safe
import Slang.Session

/-!
# What a source text can report

A source text is scanned, parsed and run.  Its run ends without a failure or with one, and that one
is about a token of the text: parsing gave up there, or the program did something that is not
allowed.  No source text leads to a failure that is about the tree or the interpreter.
-/

namespace Slang

open Grammar

/-- A token that is blamed is on the line of the mark. -/
theorem Token.IsBlamed.line {t : Token} {mark : Mark} (h : t.IsBlamed mark) :
    mark.line = .integer t.line := by
  rcases h with rfl | ⟨-, rfl⟩ <;> rfl

/-- A failure of a program at the token: parsing stopped there, or the run did for a reason that
source text can have. -/
def Failure.IsOrdinaryAt (t : Token) (failure : Failure) : Prop :=
  (∃ expected, failure = .ofParseError ⟨t, expected⟩) ∨
    ∃ mark cause, t.IsBlamed mark ∧ ¬cause.IsInternal ∧ failure = .ofFault (.runtime mark cause)

theorem Failure.IsOrdinaryAt.line {t : Token} {failure : Failure} (h : failure.IsOrdinaryAt t) :
    failure.line = .integer t.line := by
  rcases h with ⟨expected, rfl⟩ | ⟨mark, cause, hblamed, -, rfl⟩
  · rfl
  · exact hblamed.line

theorem Failure.IsOrdinaryAt.label {t : Token} {failure : Failure} (h : failure.IsOrdinaryAt t) :
    failure.label = "Parse Error: " ∨ failure.label = "Runtime error: " := by
  rcases h with ⟨expected, rfl⟩ | ⟨mark, cause, -, -, rfl⟩
  · exact .inl rfl
  · exact .inr rfl

/-- What running a unit from source text results in, apart from what it changes: no failure at all,
or a single one at the end that is about one of the tokens. -/
def Step.IsOrdinary (tokens : List Token) (step : Step) : Prop :=
  (step.ok = true ∧ step.session.hadError = false ∧ ∀ p ∈ step.printed, ¬p.IsFailure) ∨
    step.ok = false ∧ step.session.hadError = true ∧
      ∃ before failure t, step.printed = before ++ [.failure failure] ∧
        (∀ p ∈ before, ¬p.IsFailure) ∧ t ∈ tokens ∧ failure.IsOrdinaryAt t

theorem Step.IsOrdinary.mono
    {tokens tokens' : List Token} {step : Step} (h : step.IsOrdinary tokens)
    (hsubset : tokens ⊆ tokens') : step.IsOrdinary tokens' := by
  rcases h with h | ⟨hok, herror, before, failure, t, hprinted, hbefore, ht, hat⟩
  · exact .inl h
  · exact .inr ⟨hok, herror, before, failure, t, hprinted, hbefore, hsubset ht, hat⟩

/-- Warnings may be printed in front, and the trace does not matter. -/
theorem Step.IsOrdinary.warn
    {tokens : List Token} {step : Step} (h : step.IsOrdinary tokens) {warnings : List Printed}
    (hwarnings : ∀ p ∈ warnings, ¬p.IsFailure) (traced : List Event) :
    Step.IsOrdinary tokens ⟨step.session, step.ok, warnings ++ step.printed, traced⟩ := by
  have hprefix : ∀ printed : List Printed, (∀ p ∈ printed, ¬p.IsFailure) →
      ∀ p ∈ warnings ++ printed, ¬p.IsFailure := by
    intro printed hprinted p hp
    rcases List.mem_append.mp hp with hp | hp
    · exact hwarnings p hp
    · exact hprinted p hp
  rcases h with ⟨hok, herror, hprinted⟩ | ⟨hok, herror, before, failure, t, hprinted, hbefore, hat⟩
  · exact .inl ⟨hok, herror, hprefix _ hprinted⟩
  · refine .inr ⟨hok, herror, warnings ++ before, failure, t, ?_, hprefix _ hbefore, hat⟩
    rw [List.append_assoc, ← hprinted]

namespace Session

/-- A unit that is parsed runs as its program does, but for the warnings and the trace. -/
theorem runSource_of_program {source : String} {program : List Node}
    (h : Parser.program (Scan.ofSource source).tokens = .ok program) (settings : Settings)
    (session : Session) :
    let step := session.runSource settings source
    let ran := session.runProgram settings program
    step.session = ran.session ∧ step.ok = ran.ok ∧
      step.printed =
        (Scan.ofSource source).diagnostics.map Printed.ofDiagnostic ++ ran.printed := by
  simp [Session.runSource, h]

theorem isOrdinary_runProgram
    (settings : Settings) {session : Session} {statements : List Node} {tokens : List Token}
    (hspelled : SpellsProgram statements tokens) (hfaithful : ∀ t ∈ tokens, t.Faithful)
    (hscope : session.state.scope.IsPlain) (herror : session.hadError = false) :
    (session.runProgram settings statements).IsOrdinary tokens := by
  obtain ⟨missing, hmissing, hall⟩ := hspelled
  have hsafe : (Node.execAll settings statements session.state).IsSafe (tokens ++ missing) := by
    refine hall.isSafe (fun t ht => ?_) settings hscope
    rcases List.mem_append.mp ht with ht | ht
    · exact hfaithful t ht
    · exact Token.faithful_of_closes (hmissing t ht)
  unfold runProgram
  dsimp only
  split
  · exact .inl ⟨rfl, herror, hsafe.printed⟩
  · rename_i fault hfault
    have hordinary := hsafe.fault fault hfault
    cases fault with
    | runtime mark cause =>
        obtain ⟨hcause, t, ht, hcloses, hblamed⟩ := hordinary
        -- A closing word that is missing carries no mark.
        have htokens : t ∈ tokens :=
          (List.mem_append.mp ht).resolve_right fun h => hcloses (hmissing t h)
        exact .inr ⟨rfl, rfl, _, _, t, rfl, hsafe.printed, htokens,
          .inr ⟨mark, cause, hblamed, hcause, rfl⟩⟩
    | _ => exact hordinary.elim

theorem isOrdinary_parseError
    {session : Session} {tokens : List Token} {e : ParseError} (h : e.token ∈ tokens) :
    (session.fail (.ofParseFailure (.unexpected e))).IsOrdinary tokens :=
  .inr ⟨rfl, rfl, [], _, e.token, rfl, by simp, h, .inl ⟨e.expected, rfl⟩⟩

theorem isOrdinary_runSource
    (settings : Settings) {session : Session} (source : String)
    (hscope : session.state.scope.IsPlain) (herror : session.hadError = false) :
    (session.runSource settings source).IsOrdinary (Scan.ofSource source).tokens := by
  have hwarnings : ∀ p ∈ (Scan.ofSource source).diagnostics.map Printed.ofDiagnostic,
      ¬p.IsFailure := by
    intro p hp
    obtain ⟨d, -, rfl⟩ := List.mem_map.mp hp
    exact id
  obtain ⟨body, last, htokens, hlast, honly, hfaithful⟩ := Scan.exists_ofSource_eq source
  unfold runSource
  refine Step.IsOrdinary.warn ?_ hwarnings _
  cases hprogram : Parser.program (Scan.ofSource source).tokens with
  | error failure =>
      obtain ⟨e, rfl, htoken⟩ := exists_parseError_of_source hprogram
      exact isOrdinary_parseError htoken
  | ok statements =>
      rw [htokens] at hprogram ⊢
      have hspelled := spellsProgram_of_program hlast honly hprogram
      have hran := isOrdinary_runProgram settings hspelled hfaithful hscope herror
      exact hran.mono (List.subset_append_left body [last])

end Session

/-- Every source text runs on a new session without a failure or with exactly one that is reported
at the end.  It is a parse error or a failure of the program, never an internal one, and it is about
a token of the source text, so that its line is a line of that text. -/
theorem runSource_reports_no_internal_failure (settings : Settings) (input source : String) :
    let step := (Session.start input).runSource settings source
    (step.ok = true ∧ step.session.hadError = false ∧ ∀ p ∈ step.printed, ¬p.IsFailure) ∨
      step.ok = false ∧ step.session.hadError = true ∧
        ∃ before failure t, step.printed = before ++ [.failure failure] ∧
          (∀ p ∈ before, ¬p.IsFailure) ∧ t ∈ (Scan.ofSource source).tokens ∧
          failure.IsOrdinaryAt t ∧
          (failure.label = "Parse Error: " ∨ failure.label = "Runtime error: ") ∧
          failure.line = .integer t.line ∧
          1 ≤ t.line ∧ t.line ≤ 1 + source.toList.count '\n' := by
  intro step
  have hordinary : step.IsOrdinary (Scan.ofSource source).tokens :=
    Session.isOrdinary_runSource settings source Scope.isPlain_empty rfl
  rcases hordinary with h | ⟨hok, herror, before, failure, t, hprinted, hbefore, ht, hat⟩
  · exact .inl h
  · exact .inr ⟨hok, herror, before, failure, t, hprinted, hbefore, ht, hat, hat.label, hat.line,
      Scan.line_of_mem_ofSource ht⟩

end Slang
