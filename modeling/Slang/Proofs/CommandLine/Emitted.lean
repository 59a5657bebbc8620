import Slang.CommandLine.Job
import Slang.Proofs.Grammar.Sound
import Slang.Proofs.Json.LineEnds
import Slang.Proofs.Session.Report
import Slang.Proofs.Token.Scanned
import Slang.Proofs.Tree.Legible
import Slang.Proofs.Tree.Lossless

/-!
# Running an emitted tree

The tree that is emitted for a program is read back from its file as the very tree that was parsed,
so running the file and running the program differ in nothing but the warnings about the source.
-/

namespace Slang

namespace CommandLine

namespace Job

/-! ## Reading the file back -/

theorem unifyLines_of_not_mem {cs : List Char} (h : '\r' ∉ cs) : unifyLines cs = cs := by
  induction cs with
  | nil => rfl
  | cons c later ih =>
    rw [List.mem_cons, not_or] at h
    rw [unifyLines, ih h.2]
    · rintro _ rfl
      exact fun _ => h.1 rfl
    · rintro rfl
      exact h.1 rfl

theorem decode_toUTF8 {text : String} (h : '\r' ∉ text.toList) :
    decode text.toUTF8 = .ok text := by
  have hvalid : String.fromUTF8? text.toUTF8 = some text := by
    rw [String.toUTF8_eq_toByteArray, String.fromUTF8?, dif_pos text.isValidUTF8]
    rfl
  rw [decode, hvalid]
  simp [unifyLines_of_not_mem h]

theorem decode_render (j : Json) : decode j.render.toUTF8 = .ok j.render :=
  decode_toUTF8 (Json.return_not_mem_pretty 0 j)

theorem isLegible_of_parsed {source : String} {program : List Node}
    (hlines : isWritable (1 + source.toList.count '\n' : Nat) = true)
    (h : Parser.program (Scan.ofSource source).tokens = .ok program) :
    (Node.programToJson program).IsLegible := by
  obtain ⟨body, last, htokens, hlast, honly, -⟩ := Scan.exists_ofSource_eq source
  rw [htokens] at h
  apply (Grammar.spellsProgram_of_program hlast honly h).isLegible_programToJson
  intro t ht
  have hmem : t ∈ (Scan.ofSource source).tokens := by
    rw [htokens]
    exact List.mem_append_left _ ht
  have hle := (Scan.line_of_mem_ofSource hmem).2
  rw [isWritable_iff, Int.natAbs_natCast] at hlines ⊢
  exact hle.trans_lt hlines

theorem loadTree_render {program : List Node} (h : (Node.programToJson program).IsLegible) :
    loadTree (Node.programToJson program).render = .ok program := by
  rw [loadTree, Json.parse_render h]
  simp [Node.programOfJson_programToJson, Except.mapError, bind, Except.bind]

/-! ## Results -/

theorem perform_of_decode {job : Job} {path source : String} {content : ByteArray}
    (hreads : job.reads = some path) (hsource : decode content = .ok source) (input : String) :
    job.perform (some content) input = job.performOn source input := by
  simp [perform, hreads, hsource]

end Job

/-- The two results agree, but for lines that only the first one prints, before all else. -/
structure Result.AgreesAfter (first : List Printed) (direct other : Result) : Prop where
  exit : ∃ code, direct.exit = some code ∧ other.exit = some code
  error : direct.error = none ∧ other.error = none
  printed : direct.printed = first ++ other.printed
  complaint : direct.complaint = other.complaint
  unread : direct.unread = other.unread

theorem agreesAfter_of_loadTree {source text : String} {program : List Node}
    (hprogram : Parser.program (Scan.ofSource source).tokens = .ok program)
    (htext : Job.loadTree text = .ok program) (path treePath : String) (level : Nat)
    (traceFile input : String) :
    Result.AgreesAfter ((Scan.ofSource source).diagnostics.map Printed.ofDiagnostic)
      (Job.performOn ⟨.runProgram path, level, traceFile⟩ source input)
      (Job.performOn ⟨.runTree treePath, level, traceFile⟩ text input) := by
  -- Neither job is the shell, so the program is run with the same settings.
  have hsettings : Job.settings ⟨.runTree treePath, level, traceFile⟩ =
      Job.settings ⟨.runProgram path, level, traceFile⟩ := by
    simp [Job.settings]
  obtain ⟨hsession, hok, hprinted⟩ := Session.runSource_of_program hprogram
    (Job.settings ⟨.runProgram path, level, traceFile⟩) (Session.start input)
  simp only [Job.performOn, htext, hsettings, Job.finish]
  constructor
  · exact ⟨_, rfl, by rw [hok]; rfl⟩
  · exact ⟨rfl, rfl⟩
  · exact hprinted
  · rfl
  · simp [hsession]

/-- The tree of a source text that is parsed is written to a file, and running that file ends with
the same exit code, prints the same lines after the warnings and reads the same input as running the
source does.  Nothing is written for a source text that is not parsed.  As every integer in a file,
the number of lines must not have too many digits to be read. -/
theorem emitted_tree_runs_as_source {content : ByteArray} {source : String}
    (hsource : Job.decode content = .ok source)
    (hlines : isWritable (1 + source.toList.count '\n' : Nat) = true)
    (path traceFile : String) (level : Nat) :
    (∀ program, Parser.program (Scan.ofSource source).tokens = .ok program →
      ∃ text,
        (∀ input,
          let emitted := Job.perform ⟨.emitTree path, level, traceFile⟩ (some content) input
          emitted.exit = some 0 ∧ emitted.error = none ∧
            emitted.written = [(normalPath path ++ ".ast.json", text)]) ∧
        ∀ treePath input,
          Result.AgreesAfter ((Scan.ofSource source).diagnostics.map Printed.ofDiagnostic)
            (Job.perform ⟨.runProgram path, level, traceFile⟩ (some content) input)
            (Job.perform ⟨.runTree treePath, level, traceFile⟩ (some text.toUTF8) input)) ∧
    (∀ e, Parser.program (Scan.ofSource source).tokens = .error e →
      ∀ input,
        let emitted := Job.perform ⟨.emitTree path, level, traceFile⟩ (some content) input
        emitted.exit = some 1 ∧ emitted.written = []) := by
  constructor
  · intro program hprogram
    refine ⟨(Node.programToJson program).render, ?_, ?_⟩
    · intro input
      rw [Job.perform_of_decode rfl hsource]
      simp [Job.performOn, Job.emit, hprogram]
    · intro treePath input
      have htext := Job.loadTree_render (Job.isLegible_of_parsed hlines hprogram)
      rw [Job.perform_of_decode rfl hsource, Job.perform_of_decode rfl (Job.decode_render _)]
      exact agreesAfter_of_loadTree hprogram htext path treePath level traceFile input
  · intro e he input
    rw [Job.perform_of_decode rfl hsource]
    simp [Job.performOn, Job.emit, he]

namespace Sample

/-- A program with a stray character in front of it, a block that is still open at the end, and an
error on its last line if anything is entered. -/
def source : String := "~\nlisten \"n\" as @n\nbet n :\nspill n / 0"

/-- A text that is no program. -/
def unfinished : String := "spill"

theorem decode_source : Job.decode source.toUTF8 = .ok source :=
  Job.decode_toUTF8 (by decide)

theorem decode_unfinished : Job.decode unfinished.toUTF8 = .ok unfinished :=
  Job.decode_toUTF8 (by decide)

theorem exists_program : ∃ program, Parser.program (Scan.ofSource source).tokens = .ok program :=
  ⟨_, by cbv⟩

theorem exists_error : ∃ e, Parser.program (Scan.ofSource unfinished).tokens = .error e :=
  ⟨_, by cbv⟩

end Sample

theorem emitted_tree_runs_as_source_sample :
    (∃ program, Parser.program (Scan.ofSource Sample.source).tokens = .ok program) ∧
    (∃ text,
      (∀ input,
        let emitted :=
          Job.perform ⟨.emitTree "./a.genz", 0, "debug.txt"⟩ (some Sample.source.toUTF8) input
        emitted.exit = some 0 ∧ emitted.error = none ∧
          emitted.written = [(normalPath "./a.genz" ++ ".ast.json", text)]) ∧
      ∀ treePath input,
        Result.AgreesAfter ((Scan.ofSource Sample.source).diagnostics.map Printed.ofDiagnostic)
          (Job.perform ⟨.runProgram "./a.genz", 0, "debug.txt"⟩ (some Sample.source.toUTF8) input)
          (Job.perform ⟨.runTree treePath, 0, "debug.txt"⟩ (some text.toUTF8) input)) ∧
    (∃ e, Parser.program (Scan.ofSource Sample.unfinished).tokens = .error e) ∧
    ∀ input,
      let emitted :=
        Job.perform ⟨.emitTree "./a.genz", 0, "debug.txt"⟩ (some Sample.unfinished.toUTF8) input
      emitted.exit = some 1 ∧ emitted.written = [] := by
  obtain ⟨program, hprogram⟩ := Sample.exists_program
  obtain ⟨e, he⟩ := Sample.exists_error
  refine ⟨⟨program, hprogram⟩, ?_, ⟨e, he⟩, ?_⟩
  · have hsource := Sample.decode_source
    exact (emitted_tree_runs_as_source hsource (by decide) "./a.genz" "debug.txt" 0).1
      program hprogram
  · have hsource := Sample.decode_unfinished
    exact (emitted_tree_runs_as_source hsource (by decide) "./a.genz" "debug.txt" 0).2 e he

end CommandLine

end Slang
